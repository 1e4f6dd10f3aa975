import LitexDtls.WolfSsl.Bookkeeping

/-!
# Flights and their ACKs

The functions that send a flight, send it again, read the ACKs for it and write ACKs keep the
bookkeeping. An ACK takes out exactly the records that are tracked under a number that it names
(`rtxRecords_foldl_remove`).
-/
namespace LitexDtls.WolfSsl
open Library HandShakeType

variable {κ : Type} {c : RecordCipher κ}

section List
variable {α : Type*} {p : α → Bool} {a : α} {l : List α}

/-- The element that was taken out. -/
theorem find?_of_not_mem_eraseP (ha : a ∈ l) (h : a ∉ l.eraseP p) : l.find? p = some a := by
  induction l with grind

/-- There is at most one to take out. -/
theorem eraseP_eq_filter (h : l.Pairwise fun a b => p a = true → p b = false) :
    l.eraseP p = l.filter (!p ·) := by
  induction l with
  | nil => rfl
  | cons a l ih =>
    obtain ⟨ha, hl⟩ := List.pairwise_cons.mp h
    cases hp : p a with
    | true =>
      have hall : ∀ b ∈ l, (!p b) = true := fun b hb => by rw [ha b hb hp, Bool.not_false]
      rw [List.eraseP_cons_of_pos hp, List.filter_cons_of_neg (by simp [hp]),
        List.filter_eq_self.mpr hall]
    | false =>
      rw [List.eraseP_cons_of_neg (by simp [hp]), List.filter_cons_of_pos (by simp [hp]), ih hl]

end List

namespace Dtls13Session
variable {s s' : Dtls13Session κ} {r : Dtls13RtxRecord} {rn : RecordNumber} {msg : List UInt8}

/-! ## Records in the list -/

theorem mem_trackedNumbers : rn ∈ s.trackedNumbers ↔ ∃ r ∈ s.rtxRecords, rn ∈ r.numbers :=
  List.mem_flatMap

/-- The next number has not been used. -/
theorem Own.next_not_built (h : s.Own) (d : List UInt8) : (s.layer.nextNumber, d) ∉ s.built :=
  fun hmem => h.numbered.next_fresh (List.mem_map_of_mem hmem)

theorem Own.next_not_tracked (h : s.Own) : s.layer.nextNumber ∉ s.trackedNumbers := by
  intro hmem
  obtain ⟨r, hr, hrn⟩ := mem_trackedNumbers.mp hmem
  exact h.next_not_built _ (h.tracked r hr _ hrn)

theorem Named.mono {q : RtxRecord} (h : s.Named q) (hheard : s.heard ⊆ s'.heard)
    (hbuilt : s.built ⊆ s'.built) : s'.Named q := by
  obtain ⟨rn, hrn, hepoch, hmem⟩ := h
  exact ⟨rn, hheard hrn, hepoch, hbuilt hmem⟩

/-- A call that was refused. -/
theorem Keeps.of_unsent (h : Unsent s s') : Keeps s s' := by
  refine ⟨⟨fun hlt hown => ?_, ?_, ?_, ?_, ?_⟩, ?_, ?_⟩
  · have hnumbered : s'.layer.Numbered (s.built.map (·.1.use)) s'.attempts := by
      rcases h.layer with ⟨hlayer, hle⟩ | ⟨⟨hencrypt, hslots⟩, hattempts⟩
      · rw [hlayer]
        exact hown.numbered.mono (List.Subset.refl _) hle
      · rw [hattempts] at hlt ⊢
        exact (hown.numbered.advance hlt rfl hslots hencrypt).mono (List.subset_cons_self _ _)
          (Nat.le_refl _)
    rw [h.eq]
    exact { hown with numbered := hnumbered }
  · rcases h.layer with ⟨-, hle⟩ | ⟨-, hattempts⟩ <;> omega
  all_goals rw [h.eq]
  · exact List.Subset.refl _
  · rfl
  · rfl
  · exact id

/-- A record was sealed; it is not in the list yet. -/
theorem Keeps.of_sent (h : Sent msg s s') : Keeps s s' := by
  refine ⟨⟨fun hlt hown => ?_, ?_, ?_, ?_, ?_⟩, ?_, ?_⟩
  · have hattempts : s'.attempts = s.attempts + 1 := by rw [h.eq]
    have hnumbered : s'.layer.Numbered (s.layer.nextNumber.use :: s.built.map (·.1.use))
        (s.attempts + 1) :=
      hown.numbered.advance (hattempts ▸ hlt) rfl h.layer.2 h.layer.1
    rw [h.eq]
    exact { hown with
      numbered := hnumbered
      one_message := by
        intro rn d d' hd hd'
        rcases List.mem_cons.mp hd with heq | hd <;> rcases List.mem_cons.mp hd' with heq' | hd'
        · rw [Prod.mk.injEq] at heq heq'
          exact heq.2.trans heq'.2.symm
        · rw [Prod.mk.injEq] at heq
          exact absurd (heq.1 ▸ hd') (hown.next_not_built d')
        · rw [Prod.mk.injEq] at heq'
          exact absurd (heq'.1 ▸ hd) (hown.next_not_built d)
        · exact hown.one_message hd hd'
      tracked := fun r hr rn hrn => List.mem_cons_of_mem _ (hown.tracked r hr rn hrn)
      accounted := fun q hq => (hown.accounted q hq).imp_right <| .imp_right fun hnamed =>
        hnamed.mono (List.Subset.refl _) (List.subset_cons_self _ _) }
  all_goals rw [h.eq]
  · exact Nat.le_succ _
  · exact List.subset_cons_self _ _
  · rfl
  · rfl
  · exact id

/-- A record that was sealed goes to the end of the list. -/
theorem Own.rtxAddRecord (h : s.Own) (type : UInt8) (hbuilt : (rn, msg) ∈ s.built)
    (hfresh : rn ∉ s.trackedNumbers) : (s.rtxAddRecord (.new type rn.epoch msg rn.seq)).Own where
  numbered := h.numbered
  one_message := h.one_message
  tracked r hr rn' hrn' := by
    rcases List.mem_append.mp hr with hr | hr
    · exact h.tracked r hr rn' hrn'
    · obtain rfl := List.mem_singleton.mp hr
      obtain rfl := List.mem_singleton.mp hrn'
      exact hbuilt
  distinct := by
    unfold trackedNumbers at hfresh ⊢
    simp only [Dtls13Session.rtxAddRecord, List.flatMap_append, List.flatMap_singleton,
      Dtls13RtxRecord.numbers_new]
    refine List.nodup_append.mpr ⟨h.distinct, List.nodup_singleton _, fun a ha b hb heq => ?_⟩
    rw [heq, List.mem_singleton.mp hb] at ha
    exact hfresh ha
  accounted q hq := by
    rcases List.mem_append.mp hq with hq | hq
    · rcases h.accounted q hq with ⟨r, hr, heq⟩ | hrest
      · exact .inl ⟨r, List.mem_append_left _ hr, heq⟩
      · exact .inr hrest
    · obtain rfl := List.mem_singleton.mp hq
      exact .inl ⟨_, List.mem_append_right _ (List.mem_singleton_self _), rfl⟩
  seen_sorted := h.seen_sorted
  seen_got := h.seen_got
  acks_got := h.acks_got

/-- A record of the list was sealed again. -/
theorem Own.track (h : s.Own) {before rs l : List Dtls13RtxRecord} {seq : UInt64}
    (hlist : s.rtxRecords = before ++ r :: rs) (hbuilt : (⟨r.epoch, seq⟩, r.data) ∈ s.built)
    (hfresh : ⟨r.epoch, seq⟩ ∉ s.trackedNumbers) (hperm : l.Perm (before ++ r.track seq :: rs)) :
    { s with rtxRecords := l }.Own := by
  have hmem (x : Dtls13RtxRecord) (hx : x ∈ l) : x = r.track seq ∨ x ∈ s.rtxRecords := by
    have := hperm.mem_iff.mp hx
    grind
  have hnew (x : RecordNumber) (hx : x ∈ (r.track seq).numbers) :
      x = ⟨r.epoch, seq⟩ ∨ x ∈ r.numbers := by
    rw [Dtls13RtxRecord.numbers_track] at hx
    grind
  have hr : r ∈ s.rtxRecords := by rw [hlist]; simp
  exact { h with
    tracked := by
      intro x hx rn hrn
      rcases hmem x hx with rfl | hx
      · rcases hnew rn hrn with rfl | hrn
        · exact hbuilt
        · exact h.tracked r hr rn hrn
      · exact h.tracked x hx rn hrn
    distinct := by
      have hdistinct := h.distinct
      unfold trackedNumbers at hdistinct hfresh ⊢
      refine (hperm.flatMap_right _).nodup_iff.mpr ?_
      rw [hlist, List.flatMap_append, List.flatMap_cons] at hdistinct hfresh
      rw [List.flatMap_append, List.flatMap_cons, Dtls13RtxRecord.numbers_track]
      split_ifs <;> grind
    accounted := by
      intro q hq
      rcases h.accounted q hq with ⟨x, hx, heq⟩ | hrest
      · left
        rw [hlist] at hx
        by_cases hxr : x = r
        · subst hxr
          exact ⟨x.track seq, hperm.mem_iff.mpr (by simp), heq⟩
        · exact ⟨x, hperm.mem_iff.mpr (by grind), heq⟩
      · exact .inr hrest }

/-! ## Sending -/

/-- A record is kept, or the call is refused. -/
theorem sendOneFragmentRtx_cases (hc : c.Refuses) (t : Trip) (inOutputBuffer : Bool)
    (type : UInt8) (outputSize : Nat) (msg : List UInt8) (hashOutput : Bool)
    (s : Dtls13Session κ) :
    let out := s.sendOneFragmentRtx c t inOutputBuffer type outputSize msg hashOutput
    Refused out.1 ∧ (Unsent s out.2 ∨ Sent msg s out.2) ∨
      ¬ Refused out.1 ∧ ∃ s₁, Sent msg s s₁ ∧
        out.2 = if type = helloRetryRequest then s₁
          else s₁.rtxAddRecord (.new type s.layer.nextNumber.epoch msg s.layer.nextNumber.seq) := by
  intro out
  have hsend := sendFragment_cases hc t inOutputBuffer outputSize type msg hashOutput
    (s.sendNow type) s
  have hdef : out = s.sendOneFragmentRtx c t inOutputBuffer type outputSize msg hashOutput := rfl
  unfold sendOneFragmentRtx at hdef
  by_cases hmemory : type ≠ helloRetryRequest ∧ t.memory = false
  · rw [if_pos hmemory] at hdef
    rw [hdef]
    exact .inl ⟨(by decide : Refused memoryError), .inl ⟨rfl, .inl ⟨rfl, Nat.le_refl _⟩⟩⟩
  rw [if_neg hmemory] at hdef
  dsimp only at hsend hdef
  generalize s.sendFragment c t inOutputBuffer outputSize type msg hashOutput
    (s.sendNow type) = sent at hsend hdef
  have hrefused : Refused sent.1 ↔ ¬ (sent.1 = 0 ∨ sent.1 = wantWriteE) := by
    unfold Refused
    tauto
  by_cases hret : Refused sent.1
  · rw [if_neg (fun h => hrefused.mp hret h.2)] at hdef
    rw [hdef]
    exact .inl ⟨hret, hsend.imp_left And.right⟩
  · have hsent : Sent msg s sent.2 := hsend.resolve_left fun h => hret h.1
    refine .inr ?_
    by_cases htype : type = helloRetryRequest
    · rw [if_neg (fun h => h.1 htype)] at hdef
      rw [hdef]
      exact ⟨hret, sent.2, hsent, (if_pos htype).symm⟩
    · rw [if_pos ⟨htype, not_not.mp (mt hrefused.mpr hret)⟩] at hdef
      rw [hdef]
      exact ⟨hret, sent.2, hsent, (if_neg htype).symm⟩

/-- The record that was sealed is tracked under its number from then on. -/
theorem Keeps.of_sent_add (h : Sent msg s s') (type : UInt8) :
    Keeps s (s'.rtxAddRecord (.new type s.layer.nextNumber.epoch msg s.layer.nextNumber.seq)) := by
  have hkeeps := Keeps.of_sent h
  refine ⟨⟨fun hlt hown => ?_, hkeeps.attempts, hkeeps.built, hkeeps.got, hkeeps.heard⟩,
    hkeeps.acked, hkeeps.waits⟩
  have hbuilt : (s.layer.nextNumber, msg) ∈ s'.built := by
    rw [h.eq]
    exact List.mem_cons_self
  have hfresh : s.layer.nextNumber ∉ s'.trackedNumbers := by
    rw [h.eq]
    exact hown.next_not_tracked
  exact (hkeeps.own hlt hown).rtxAddRecord type hbuilt hfresh

theorem keeps_sendOneFragmentRtx (hc : c.Refuses) (t : Trip) (inOutputBuffer : Bool)
    (type : UInt8) (outputSize : Nat) (msg : List UInt8) (hashOutput : Bool)
    (s : Dtls13Session κ) :
    Keeps s (s.sendOneFragmentRtx c t inOutputBuffer type outputSize msg hashOutput).2 := by
  rcases sendOneFragmentRtx_cases hc t inOutputBuffer type outputSize msg hashOutput s with
    ⟨-, hunsent | hsent⟩ | ⟨-, s₁, hsent, heq⟩
  · exact .of_unsent hunsent
  · exact .of_sent hsent
  · rw [heq]
    split_ifs
    · exact .of_sent hsent
    · exact .of_sent_add hsent type

theorem keeps_checkAvailableSize (t : Trip) (size : Nat) (s : Dtls13Session κ) :
    Keeps s (s.checkAvailableSize t size).2 := by
  obtain ⟨_, heq⟩ := checkAvailableSize_eq t size s
  rw [heq]
  exact .of_unsent ⟨rfl, .inl ⟨rfl, Nat.le_refl _⟩⟩

theorem keeps_freeFragmentsBuffer (s : Dtls13Session κ) : Keeps s s.freeFragmentsBuffer :=
  ⟨⟨fun _ h => { h with }, Nat.le_refl _, List.Subset.refl _, rfl, rfl⟩, rfl, id⟩

theorem keeps_skipFragment (s : Dtls13Session κ) : Keeps s (s.skipFragment c) :=
  ⟨⟨fun _ h => { h with }, Nat.le_refl _, List.Subset.refl _, rfl, rfl⟩, rfl, id⟩

theorem keeps_countMessage (s : Dtls13Session κ) : Keeps s s.countMessage :=
  ⟨⟨fun _ h => { h with }, Nat.le_refl _, List.Subset.refl _, rfl, rfl⟩, rfl, id⟩

theorem keeps_sendFragmentsLoop (hc : c.Refuses) (fuel : Nat) (trips : Nat → Trip)
    (s : Dtls13Session κ) :
    Keeps s (s.sendFragmentsLoop c fuel trips).2 := by
  induction fuel generalizing s trips with
  | zero => exact keeps_freeFragmentsBuffer s
  | succ fuel ih =>
    have hroom := keeps_checkAvailableSize (trips 0) (s.fragRecordLength c + maxMsgExtra) s
    have hsend (s : Dtls13Session κ) : Keeps s (s.sendNextFragment c (trips 0)).2 :=
      keeps_sendOneFragmentRtx hc (trips 0) _ _ _ _ _ s
    unfold sendFragmentsLoop
    dsimp only
    split_ifs
    · exact keeps_freeFragmentsBuffer s
    · exact hroom.trans (keeps_freeFragmentsBuffer _)
    · exact (hroom.trans (hsend _)).trans (keeps_skipFragment _)
    · exact (hroom.trans (hsend _)).trans (keeps_freeFragmentsBuffer _)
    · exact ((hroom.trans (hsend _)).trans (keeps_skipFragment _)).trans (ih _ _)

theorem keeps_sendFragmented (hc : c.Refuses) (trips : Nat → Trip)
    (type : UInt8) (msg : List UInt8) (hashOutput : Bool) (s : Dtls13Session κ) :
    Keeps s (s.sendFragmented c trips type msg hashOutput).2 := by
  have hstart (buffer : List UInt8) (length : Nat) : Keeps s { s with
      fragmentsBuffer := buffer
      messageLength := length
      fragHandshakeType := type
      sendingFragments := true } :=
    ⟨⟨fun _ h => { h with }, Nat.le_refl _, List.Subset.refl _, rfl, rfl⟩, rfl, id⟩
  unfold sendFragmented
  split_ifs
  · exact .refl s
  · exact .refl s
  · exact .refl s
  · exact (hstart _ _).trans (keeps_sendFragmentsLoop hc _ _ _)

theorem keeps_fragmentsContinue (hc : c.Refuses) (trips : Nat → Trip)
    (s : Dtls13Session κ) : Keeps s (s.fragmentsContinue c trips).2 := by
  have hloop := keeps_sendFragmentsLoop hc (s.messageLength - s.fragOffset) trips s
  unfold fragmentsContinue
  dsimp only
  split_ifs
  · exact hloop.trans (keeps_countMessage _)
  · exact hloop

theorem keeps_sendMessage (hc : c.Refuses) (trips : Nat → Trip)
    (inOutputBuffer : Bool) (type : UInt8) (outputSize : Nat) (msg : List UInt8)
    (hashOutput : Bool) (s : Dtls13Session κ) :
    Keeps s (s.sendMessage c trips inOutputBuffer type outputSize msg hashOutput).2 := by
  have hone := keeps_sendOneFragmentRtx hc (trips 0) inOutputBuffer type outputSize msg hashOutput s
  have hmany := keeps_sendFragmented hc trips type msg hashOutput s
  unfold sendMessage
  dsimp only
  split_ifs
  · exact hone.trans (keeps_countMessage _)
  · exact hone
  · exact hmany.trans (keeps_countMessage _)
  · exact hmany

/-! ## Changes of the epoch -/

theorem keeps_setEpochKeys (n : UInt64) (side : EncryptSide) (s : Dtls13Session κ) :
    Keeps s (s.setEpochKeys n side).2 :=
  ⟨⟨fun _ h => { h with numbered := h.numbered.setEpochKeys n side }, Nat.le_refl _,
    List.Subset.refl _, rfl, rfl⟩, rfl, id⟩

theorem keeps_selectEncrypt (n : UInt64) (s : Dtls13Session κ) : Keeps s (s.selectEncrypt n).2 := by
  unfold selectEncrypt
  split_ifs
  · exact keeps_setEpochKeys n .encryptSideOnly s
  · exact .refl s

/-- An epoch that no handshake record was sealed in, or that still has its slot. -/
def Fresh (n : UInt64) (s : Dtls13Session κ) : Prop :=
  s.layer.getEpoch n = none → ∀ p ∈ s.built, p.1.epoch ≠ n

theorem keeps_newEpoch {n : UInt64} (hfresh : s.Fresh n) (side : EncryptSide)
    (keys : DerivedKeys κ) : Keeps s (s.newEpoch n side keys).2 :=
  ⟨⟨fun _ h => { h with numbered := h.numbered.newEpoch (fun hnone seq hmem => by
      obtain ⟨p, hp, heq⟩ := List.mem_map.mp hmem
      exact hfresh hnone p hp (congrArg Prod.fst heq)) side keys },
    Nat.le_refl _, List.Subset.refl _, rfl, rfl⟩, rfl, id⟩

theorem keeps_handshakeSend (hc : c.Refuses) (trips : Nat → Trip)
    (inOutputBuffer : Bool) (type : UInt8) (outputSize : Nat) (msg : List UInt8)
    (hashOutput : Bool) (s : Dtls13Session κ) :
    Keeps s (s.handshakeSend c trips inOutputBuffer type outputSize msg hashOutput).2 := by
  have hflush (seen : List RecordNumber) (hseen : seen = [] ∨ seen = s.seenRecords) :
      Keeps s { s with seenRecords := seen } := by
    refine ⟨⟨fun _ h => ?_, Nat.le_refl _, List.Subset.refl _, rfl, rfl⟩, rfl, id⟩
    rcases hseen with rfl | rfl
    · exact { h with seen_sorted := List.Pairwise.nil, seen_got := by simp }
    · exact h
  have hwait (b : Bool) (s : Dtls13Session κ) :
      Keeps s { s with waitKeyUpdateAck := s.waitKeyUpdateAck || b } :=
    ⟨⟨fun _ h => { h with }, Nat.le_refl _, List.Subset.refl _, rfl, rfl⟩, rfl,
      fun h => by simp [h]⟩
  unfold handshakeSend
  extract_lets seenRecords
  have hseen : seenRecords = [] ∨ seenRecords = s.seenRecords := by
    dsimp only [seenRecords]
    split_ifs
    · exact .inl rfl
    · exact .inr rfl
  have hselect := (hflush seenRecords hseen).trans (keeps_selectEncrypt s.layer.dtls13Epoch _)
  dsimp only
  split_ifs
  · exact hselect
  · exact (hselect.trans (hwait _ _)).trans (keeps_sendMessage hc trips _ _ _ _ _ _)

/-! ## Sending again -/

/-- After `Dtls13SetEpochKeys` for sending, the epoch encrypts. -/
theorem selectEncrypt_epoch {n : UInt64} (h : (s.selectEncrypt n).1 = 0) :
    (s.selectEncrypt n).2.layer.nextNumber.epoch = n := by
  unfold selectEncrypt at h ⊢
  by_cases hsame : s.layer.nextNumber.epoch ≠ n
  · rw [if_pos hsame] at h ⊢
    unfold setEpochKeys RecordLayer.setEpochKeys at h ⊢
    cases hget : s.layer.getEpoch n with
    | none =>
      rw [hget] at h
      exact absurd h (by decide : badStateE ≠ 0)
    | some i =>
      have hi := (RecordLayer.getEpoch_eq_some hget).1
      rw [hget] at h
      by_cases hside : (s.layer.slot i).side ≠ some .encryptAndDecryptSide ∧
          (s.layer.slot i).side ≠ some .encryptSideOnly
      · simp only [if_pos hside] at h
        exact absurd h (by decide : badStateE ≠ 0)
      · simp only [if_neg hside]
        by_cases hzero : n = 0
        · rw [if_pos hzero]
          exact hi
        · rw [if_neg hzero]
          exact hi
  · rw [if_neg hsame]
    exact not_not.mp hsame

/-- There is room for a record, and its epoch encrypts, or it is not sent. -/
theorem rtxReady_cases (t : Trip) (r : Dtls13RtxRecord) (s : Dtls13Session κ) :
    Keeps s (s.rtxReady t r).2 ∧ (s.rtxReady t r).2.rtxRecords = s.rtxRecords ∧
      ((s.rtxReady t r).1 = 0 → (s.rtxReady t r).2.layer.nextNumber.epoch = r.epoch) := by
  have hlist (s : Dtls13Session κ) : (s.selectEncrypt r.epoch).2.rtxRecords = s.rtxRecords := by
    unfold selectEncrypt
    split_ifs <;> rfl
  unfold rtxReady
  extract_lets headerLength
  have hroom := keeps_checkAvailableSize t
    (r.data.length + headerLength + if r.epoch ≠ 0 then maxMsgExtra else 0) s
  obtain ⟨_, heq⟩ := checkAvailableSize_eq t
    (r.data.length + headerLength + if r.epoch ≠ 0 then maxMsgExtra else 0) s
  generalize s.checkAvailableSize t _ = room at hroom heq ⊢
  dsimp only
  by_cases hret : room.1 ≠ 0
  · rw [if_pos hret]
    exact ⟨hroom, by rw [heq], fun h => absurd h hret⟩
  · rw [if_neg hret]
    exact ⟨hroom.trans (keeps_selectEncrypt _ _), by rw [hlist, heq], selectEncrypt_epoch⟩

/-- A record that was sealed again is tracked under its new number as well. -/
theorem Keeps.of_sent_track (h : Sent r.data s s') {before rs l : List Dtls13RtxRecord}
    (hlist : s.rtxRecords = before ++ r :: rs) (hepoch : s.layer.nextNumber.epoch = r.epoch)
    (hperm : l.Perm (before ++ r.track s.layer.nextNumber.seq :: rs)) :
    Keeps s { s' with rtxRecords := l } := by
  have hkeeps := Keeps.of_sent h
  refine ⟨⟨fun hlt hown => ?_, hkeeps.attempts, hkeeps.built, hkeeps.got, hkeeps.heard⟩,
    hkeeps.acked, hkeeps.waits⟩
  have hnumber : (⟨r.epoch, s.layer.nextNumber.seq⟩ : RecordNumber) = s.layer.nextNumber := by
    rw [← hepoch]
  have hlist' : s'.rtxRecords = before ++ r :: rs := by rw [h.eq, ← hlist]
  have hbuilt : (⟨r.epoch, s.layer.nextNumber.seq⟩, r.data) ∈ s'.built := by
    rw [h.eq, hnumber]
    exact List.mem_cons_self
  have hfresh : ⟨r.epoch, s.layer.nextNumber.seq⟩ ∉ s'.trackedNumbers := by
    rw [h.eq, hnumber]
    exact hown.next_not_tracked
  exact (hkeeps.own hlt hown).track hlist' hbuilt hfresh hperm

theorem keeps_rtxSendLoop (hc : c.Refuses) (before rs : List Dtls13RtxRecord) (trips : Nat → Trip)
    (s : Dtls13Session κ) (hlist : s.rtxRecords = before ++ rs) :
    Keeps s (s.rtxSendLoop c before rs trips).2 := by
  induction rs generalizing before trips s with
  | nil => exact .refl s
  | cons r rs ih =>
    obtain ⟨hready, hready_list, hepoch⟩ := rtxReady_cases (trips 0) r s
    have hsend := sendFragment_cases hc (trips 0) true
      (r.data.length + dtls13GetRlHeaderLength (r.epoch ≠ 0) +
        if r.epoch ≠ 0 then maxMsgExtra else 0) r.handshakeType r.data false
      (rs.isEmpty || !(s.rtxReady (trips 0) r).2.groupMessages) (s.rtxReady (trips 0) r).2
    unfold rtxSendLoop rtxSendOne
    dsimp only at hsend ⊢
    generalize s.rtxReady (trips 0) r = ready at hready hready_list hepoch hsend ⊢
    generalize ready.2.sendFragment c (trips 0) true _ r.handshakeType r.data false _ = sent
      at hsend ⊢
    rw [hlist] at hready_list
    split_ifs with hret hrefused hwant
    · exact hready
    · rcases hsend with ⟨-, hunsent⟩ | hsent
      · exact hready.trans (.of_unsent hunsent)
      · exact hready.trans (.of_sent hsent)
    all_goals
      have hsent : Sent r.data ready.2 sent.2 := hsend.resolve_left fun h => hrefused h.1
      have hepoch := hepoch (not_not.mp hret)
    · refine hready.trans (.of_sent_track hsent hready_list hepoch ?_)
      rw [List.append_assoc]
      exact List.Perm.append_left _ (List.perm_append_singleton _ _)
    · have htrack := Keeps.of_sent_track hsent hready_list hepoch (List.Perm.refl _)
      exact (hready.trans htrack).trans (ih _ _ _ (by simp))

theorem keeps_rtxSendBuffered (hc : c.Refuses) (trips : Nat → Trip)
    (s : Dtls13Session κ) : Keeps s (s.rtxSendBuffered c trips).2 :=
  keeps_rtxSendLoop hc [] s.rtxRecords trips s rfl

/-! ## Records that leave the list -/

/-- Some records leave the list, and each of them is accounted for. -/
theorem Own.sublist (h : s.Own) {l : List Dtls13RtxRecord} (hl : l.Sublist s.rtxRecords)
    {released : List RtxRecord} {heard : List RecordNumber} (hreleased : s.released ⊆ released)
    (hheard : s.heard ⊆ heard)
    (hleft : ∀ r ∈ s.rtxRecords, r ∉ l → r.toRtxRecord ∈ released ∨
      ∃ rn ∈ heard, rn ∈ r.numbers) :
    { s with rtxRecords := l, released := released, heard := heard }.Own :=
  { h with
    tracked := fun r hr => h.tracked r (hl.subset hr)
    distinct := h.distinct.sublist (hl.flatMap _)
    accounted := by
      intro q hq
      rcases h.accounted q hq with ⟨r, hr, rfl⟩ | hq | hnamed
      · by_cases hrl : r ∈ l
        · exact .inl ⟨r, hrl, rfl⟩
        · rcases hleft r hr hrl with hq | ⟨rn, hrn, hnumber⟩
          · exact .inr (.inl hq)
          · exact .inr (.inr ⟨rn, hrn, Dtls13RtxRecord.epoch_of_mem_numbers hnumber,
              h.tracked r hr rn hnumber⟩)
      · exact .inr (.inl (hreleased hq))
      · exact .inr (.inr (hnamed.mono hheard (List.Subset.refl _))) }

theorem Keeps.ite {p : Prop} [Decidable p] {s₁ s₂ : Dtls13Session κ} (h₁ : Keeps s s₁)
    (h₂ : Keeps s s₂) : Keeps s (if p then s₁ else s₂) := by
  split_ifs
  · exact h₁
  · exact h₂

theorem keeps_release (p : Dtls13RtxRecord → Bool) (s : Dtls13Session κ) :
    Keeps s (s.release p) := by
  refine ⟨⟨fun _ h => ?_, Nat.le_refl _, List.Subset.refl _, rfl, rfl⟩, rfl, id⟩
  refine h.sublist List.eraseP_sublist (List.subset_append_left _ _) (List.Subset.refl _)
    fun r hr hrl => .inl (List.mem_append_right _ ?_)
  rw [find?_of_not_mem_eraseP hr hrl]
  exact List.mem_singleton_self _

theorem keeps_rtxFlushBuffered (keepNewSessionTicket : Bool) (s : Dtls13Session κ) :
    Keeps s (s.rtxFlushBuffered keepNewSessionTicket) := by
  refine ⟨⟨fun _ h => ?_, Nat.le_refl _, List.Subset.refl _, rfl, rfl⟩, rfl, id⟩
  refine h.sublist List.filter_sublist (List.subset_append_left _ _) (List.Subset.refl _)
    fun r hr hrl => .inl (List.mem_append_right _ (List.mem_map_of_mem ?_))
  grind

theorem keeps_rtxMsgRecvd (m : Recvd) (s : Dtls13Session κ) : Keeps s (s.rtxMsgRecvd m) := by
  have hseen (s : Dtls13Session κ) :
      Keeps s { s with seenRecords := rtxRemoveCurAck m.rn s.seenRecords } :=
    ⟨⟨fun _ h => { h with
      seen_sorted := h.seen_sorted.sublist List.erase_sublist
      seen_got := fun rn hrn => h.seen_got rn (List.mem_of_mem_erase hrn) },
      Nat.le_refl _, List.Subset.refl _, rfl, rfl⟩, rfl, id⟩
  have hretransmit (s : Dtls13Session κ) : Keeps s { s with retransmit := true } :=
    ⟨⟨fun _ h => { h with }, Nat.le_refl _, List.Subset.refl _, rfl, rfl⟩, rfl, id⟩
  unfold rtxMsgRecvd
  extract_lets s₁ s₂ s₃
  have h₁ : Keeps s s₁ := .ite (keeps_release _ s) (.refl s)
  have h₂ : Keeps s s₂ := .ite (.ite (h₁.trans (keeps_rtxFlushBuffered true s₁)) h₁) (.refl s)
  have h₃ : Keeps s s₃ := .ite (h₂.trans (hretransmit s₂)) h₂
  exact .ite (h₃.trans (hseen s₃)) h₃

theorem keeps_rtxProcessingCertificate (input : List UInt8) (s : Dtls13Session κ) :
    Keeps s (s.rtxProcessingCertificate input).2 := by
  unfold rtxProcessingCertificate
  dsimp only
  split_ifs
  · exact .refl s
  · exact .refl s
  · exact keeps_release _ s

/-! ## Reading ACKs -/

theorem Own.rtxRemoveRecord (h : s.Own) (hrn : rn ∈ s.heard) : (s.rtxRemoveRecord rn).Own := by
  refine h.sublist List.eraseP_sublist (List.Subset.refl _) (List.Subset.refl _)
    fun r hr hrl => .inr ⟨rn, hrn, Dtls13RtxRecord.isTrackedByRn_iff.mp ?_⟩
  exact List.find?_some (find?_of_not_mem_eraseP hr hrl)

/-- Only the list changes. -/
theorem foldl_rtxRemoveRecord (numbers : List RecordNumber) (s : Dtls13Session κ) :
    ∃ l, numbers.foldl Dtls13Session.rtxRemoveRecord s = { s with rtxRecords := l } := by
  induction numbers generalizing s with
  | nil => exact ⟨s.rtxRecords, rfl⟩
  | cons rn numbers ih => exact ih (s.rtxRemoveRecord rn)

/-- Those go that are tracked under a number that the ACK names. -/
theorem rtxRecords_foldl_remove (hdistinct : s.trackedNumbers.Nodup) (numbers : List RecordNumber) :
    (numbers.foldl Dtls13Session.rtxRemoveRecord s).rtxRecords =
      s.rtxRecords.filter fun r => numbers.all (!r.isTrackedByRn ·) := by
  induction numbers generalizing s with
  | nil => simp
  | cons rn numbers ih =>
    have hone : s.rtxRecords.Pairwise fun a b =>
        a.isTrackedByRn rn = true → b.isTrackedByRn rn = false := by
      refine (List.nodup_flatMap.mp hdistinct).2.imp fun hab ha => ?_
      rw [Bool.eq_false_iff]
      exact fun hb => hab (Dtls13RtxRecord.isTrackedByRn_iff.mp ha)
        (Dtls13RtxRecord.isTrackedByRn_iff.mp hb)
    have hnext : (s.rtxRemoveRecord rn).trackedNumbers.Nodup :=
      hdistinct.sublist (List.eraseP_sublist.flatMap _)
    rw [List.foldl_cons, ih hnext]
    simp only [Dtls13Session.rtxRemoveRecord, eraseP_eq_filter hone, List.filter_filter,
      List.all_cons, Bool.and_comm]

theorem Own.foldl_rtxRemoveRecord (h : s.Own) {numbers : List RecordNumber}
    (hheard : numbers ⊆ s.heard) : (numbers.foldl Dtls13Session.rtxRemoveRecord s).Own := by
  induction numbers generalizing s with
  | nil => exact h
  | cons rn numbers ih =>
    obtain ⟨hrn, hrest⟩ := List.cons_subset.mp hheard
    exact ih (h.rtxRemoveRecord hrn) hrest

theorem keeps_keyUpdateAckReceived (hfresh : s.Fresh (s.layer.dtls13Epoch + 1))
    (keys : Except Int32 (DerivedKeys κ)) : Keeps s (s.keyUpdateAckReceived keys).2 := by
  have hepoch (n : UInt64) (s : Dtls13Session κ) :
      Keeps s { s with layer := { s.layer with dtls13Epoch := n } } :=
    ⟨⟨fun _ h => { h with numbered := h.numbered.of_eq rfl h.numbered.encrypt_valid },
      Nat.le_refl _, List.Subset.refl _, rfl, rfl⟩, rfl, id⟩
  unfold keyUpdateAckReceived
  cases keys with
  | error ret => exact .refl s
  | ok keys =>
    have hnew := keeps_newEpoch hfresh .encryptSideOnly keys
    dsimp only
    split_ifs
    · exact hnew
    · exact hnew.trans (hepoch _ _)
    · exact (hnew.trans (hepoch _ _)).trans (keeps_setEpochKeys _ _ _)

theorem takes_doDtls13KeyUpdateAck (hfresh : s.Fresh (s.layer.dtls13Epoch + 1))
    (keys : Except Int32 (DerivedKeys κ)) : Takes [] [] s (s.doDtls13KeyUpdateAck keys).2 := by
  have hwait : Takes [] [] s { s with waitKeyUpdateAck := false } :=
    ⟨fun _ h => { h with }, Nat.le_refl _, List.Subset.refl _, rfl, rfl⟩
  unfold doDtls13KeyUpdateAck
  split_ifs
  · exact (Keeps.refl s).toTakes
  · exact hwait.trans
      (keeps_keyUpdateAckReceived (s := { s with waitKeyUpdateAck := false }) hfresh keys).toTakes

theorem takes_ackRead (hfresh : s.Fresh (s.layer.dtls13Epoch + 1))
    (keys : Except Int32 (DerivedKeys κ)) : Takes [] [] s (s.ackRead keys).2 := by
  have hflags (acked retransmit : Bool) (s : Dtls13Session κ) :
      Takes [] [] s { s with serverFinishedAcked := acked, retransmit := retransmit } :=
    ⟨fun _ h => { h with }, Nat.le_refl _, List.Subset.refl _, rfl, rfl⟩
  unfold ackRead
  extract_lets s₁
  have h₁ : Takes [] [] s s₁ := hflags _ s.retransmit s
  have h₂ : Takes [] [] s
      (if s₁.waitKeyUpdateAck then s₁.doDtls13KeyUpdateAck keys else (0, s₁)).2 := by
    split_ifs
    · exact h₁.trans (takes_doDtls13KeyUpdateAck (s := s₁) hfresh keys)
    · exact h₁
  generalize (if s₁.waitKeyUpdateAck then s₁.doDtls13KeyUpdateAck keys else (0, s₁)) = out at h₂ ⊢
  dsimp only
  split_ifs
  · exact h₂
  · exact h₂.trans (hflags out.2.serverFinishedAcked _ out.2)

/-- An ACK is refused, or its numbers are all heard. -/
theorem doDtls13Ack_cases (hfresh : s.Fresh (s.layer.dtls13Epoch + 1))
    (keys : Except Int32 (DerivedKeys κ)) (input : List UInt8) :
    (s.doDtls13Ack keys input).2 = s ∨ ∃ numbers length,
      readAckMessage input = .ok (numbers, length) ∧
        Takes [] numbers s (s.doDtls13Ack keys input).2 := by
  unfold doDtls13Ack
  cases hread : readAckMessage input with
  | error ret => exact .inl rfl
  | ok read =>
    obtain ⟨numbers, length⟩ := read
    obtain ⟨l, hremove⟩ := foldl_rtxRemoveRecord numbers { s with heard := numbers ++ s.heard }
    have hown (h : s.Own) : { s with heard := numbers ++ s.heard, rtxRecords := l }.Own := by
      rw [← hremove]
      refine Own.foldl_rtxRemoveRecord ?_ (List.subset_append_left _ _)
      refine { h with accounted := fun q hq => ?_ }
      exact (h.accounted q hq).imp_right (.imp_right fun hnamed =>
        hnamed.mono (List.subset_append_right _ _) (List.Subset.refl _))
    dsimp only
    rw [hremove]
    have hread :=
      takes_ackRead (s := { s with heard := numbers ++ s.heard, rtxRecords := l }) hfresh keys
    exact .inr ⟨numbers, length, rfl, fun hlt h => hread.own hlt (hown h), hread.attempts,
      hread.built, hread.got, hread.heard⟩

/-- What a session says because of an ACK: that the last flight of the client has come, and that
the new keys may be taken. -/
structure Says (s s' : Dtls13Session κ) : Prop where
  acked : s'.serverFinishedAcked = true → s.serverFinishedAcked = true ∨ s'.rtxRecords = []
  waits : s.waitKeyUpdateAck = true → s'.waitKeyUpdateAck = true ∨
    ∀ r ∈ s'.rtxRecords, r.handshakeType ≠ keyUpdate

/-- The flags and the list are left alone. -/
theorem keyUpdateAckReceived_same (keys : Except Int32 (DerivedKeys κ)) (s : Dtls13Session κ) :
    (s.keyUpdateAckReceived keys).2.rtxRecords = s.rtxRecords ∧
      (s.keyUpdateAckReceived keys).2.serverFinishedAcked = s.serverFinishedAcked := by
  unfold keyUpdateAckReceived
  cases keys with
  | error ret => exact ⟨rfl, rfl⟩
  | ok keys =>
    dsimp only
    split_ifs <;> exact ⟨rfl, rfl⟩

theorem doDtls13KeyUpdateAck_same (keys : Except Int32 (DerivedKeys κ)) (s : Dtls13Session κ) :
    (s.doDtls13KeyUpdateAck keys).2.rtxRecords = s.rtxRecords ∧
      (s.doDtls13KeyUpdateAck keys).2.serverFinishedAcked = s.serverFinishedAcked ∧
      (s.waitKeyUpdateAck = true → (s.doDtls13KeyUpdateAck keys).2.waitKeyUpdateAck = true ∨
        ∀ r ∈ s.rtxRecords, r.handshakeType ≠ keyUpdate) := by
  unfold doDtls13KeyUpdateAck
  split_ifs with hany
  · exact ⟨rfl, rfl, .inl⟩
  · obtain ⟨hlist, hacked⟩ := keyUpdateAckReceived_same keys { s with waitKeyUpdateAck := false }
    refine ⟨hlist, hacked, fun _ => .inr fun r hr htype => hany ?_⟩
    exact List.any_eq_true.mpr ⟨r, hr, beq_iff_eq.mpr htype⟩

/-- Behind the loop over the numbers, the list is left alone. -/
theorem says_ackRead (keys : Except Int32 (DerivedKeys κ)) (s : Dtls13Session κ) :
    Says s (s.ackRead keys).2 ∧ (s.ackRead keys).2.rtxRecords = s.rtxRecords := by
  unfold ackRead
  extract_lets s₁
  have hacked₁ : s₁.serverFinishedAcked = true →
      s.serverFinishedAcked = true ∨ s₁.rtxRecords = [] := by
    simp only [s₁, Bool.or_eq_true, Bool.and_eq_true, List.isEmpty_iff]
    exact fun h => h.imp_right And.right
  have hout : Says s (if s₁.waitKeyUpdateAck then s₁.doDtls13KeyUpdateAck keys else (0, s₁)).2 ∧
      (if s₁.waitKeyUpdateAck then s₁.doDtls13KeyUpdateAck keys else (0, s₁)).2.rtxRecords =
        s.rtxRecords := by
    obtain ⟨hlist, hacked, hwaits⟩ := doDtls13KeyUpdateAck_same keys s₁
    split_ifs
    · exact ⟨⟨fun h => hlist ▸ hacked₁ (hacked ▸ h), fun h => hlist ▸ hwaits h⟩, hlist⟩
    · exact ⟨⟨hacked₁, .inl⟩, rfl⟩
  generalize (if s₁.waitKeyUpdateAck then s₁.doDtls13KeyUpdateAck keys else (0, s₁)) = out at hout ⊢
  dsimp only
  split_ifs
  · exact hout
  · exact ⟨⟨hout.1.acked, hout.1.waits⟩, hout.2⟩

theorem says_doDtls13Ack (keys : Except Int32 (DerivedKeys κ)) (input : List UInt8)
    (s : Dtls13Session κ) : Says s (s.doDtls13Ack keys input).2 := by
  unfold doDtls13Ack
  cases readAckMessage input with
  | error ret => exact ⟨.inl, .inl⟩
  | ok read =>
    obtain ⟨l, hremove⟩ :=
      foldl_rtxRemoveRecord read.1 { s with heard := read.1 ++ s.heard }
    dsimp only
    rw [hremove]
    have hrest := (says_ackRead keys { s with heard := read.1 ++ s.heard, rtxRecords := l }).1
    exact ⟨hrest.acked, hrest.waits⟩

/-- An ACK that was written takes out those that are tracked under a number in it. -/
theorem mem_rtxRecords_doDtls13Ack (hdistinct : s.trackedNumbers.Nodup)
    (keys : Except Int32 (DerivedKeys κ)) (seen : List RecordNumber) :
    r ∈ (s.doDtls13Ack keys (ackMessage seen)).2.rtxRecords ↔
      r ∈ s.rtxRecords ∧ ∀ rn ∈ seen.take (seen.length % 4096), rn ∉ r.numbers := by
  have hread := readAckMessage_ackMessage seen []
  rw [List.append_nil] at hread
  unfold doDtls13Ack
  rw [hread]
  dsimp only
  have hremove := rtxRecords_foldl_remove
    (s := { s with heard := seen.take (seen.length % 4096) ++ s.heard }) hdistinct
    (seen.take (seen.length % 4096))
  rw [(says_ackRead keys _).2, hremove]
  simp only [List.mem_filter, List.all_eq_true, Bool.not_eq_true', ← Bool.not_eq_true,
    Dtls13RtxRecord.isTrackedByRn_iff]

/-! ## ACKs for the peer -/

/-- The numbers in an ACK that was written are numbers of the list. -/
theorem mem_of_readAckMessage {seen numbers : List RecordNumber} {length : Nat}
    (h : readAckMessage (ackMessage seen) = .ok (numbers, length)) : numbers ⊆ seen := by
  have hread := readAckMessage_ackMessage seen []
  rw [List.append_nil, h] at hread
  simp only [Except.ok.injEq, Prod.mk.injEq] at hread
  rw [hread.1]
  exact List.take_subset _ _

theorem keeps_sendDtls13Ack (hc : c.Refuses) (t : Trip) (s : Dtls13Session κ) :
    Keeps s (s.sendDtls13Ack c t).2 := by
  have hflush (bytes : List UInt8) (s : Dtls13Session κ) : Keeps s { s with
      outputBuffer := bytes
      seenRecords := []
      acks := ackMessage s.seenRecords :: s.acks } := by
    refine ⟨⟨fun _ h => ?_, Nat.le_refl _, List.Subset.refl _, rfl, rfl⟩, rfl, id⟩
    exact { h with
      seen_sorted := List.Pairwise.nil
      seen_got := by simp
      acks_got := by
        intro ack hack numbers length hread rn hrn
        rcases List.mem_cons.mp hack with rfl | hack
        · exact h.seen_got rn (mem_of_readAckMessage hread hrn)
        · exact h.acks_got ack hack numbers length hread rn hrn }
  have hseal (isProtected : Bool) (outputSize : Nat) (msg : List UInt8) (s : Dtls13Session κ) :
      Keeps s (s.sealRecord c outputSize isProtected ackType msg).2 := by
    obtain ⟨layer, heq, hcases⟩ := sealRecord_cases hc outputSize isProtected ackType msg s
    rw [heq]
    refine .of_unsent ⟨rfl, ?_⟩
    rcases hcases with ⟨-, hlayer | hlayer⟩ | ⟨-, hlayer⟩
    · exact .inl ⟨hlayer, Nat.le_succ _⟩
    · exact .inr ⟨hlayer, rfl⟩
    · exact .inr ⟨hlayer, rfl⟩
  have hselect : Keeps s (if s.layer.serverEnd && !s.layer.handShakeDone && 3 ≤ s.layer.dtls13Epoch
      then s.setEpochKeys 2 .encryptSideOnly else s.selectEncrypt s.layer.dtls13Epoch).2 := by
    split_ifs
    · exact keeps_setEpochKeys _ _ s
    · exact keeps_selectEncrypt _ s
  unfold sendDtls13Ack
  generalize (if s.layer.serverEnd && !s.layer.handShakeDone && 3 ≤ s.layer.dtls13Epoch
      then s.setEpochKeys 2 .encryptSideOnly else s.selectEncrypt s.layer.dtls13Epoch) = selected
      at hselect ⊢
  obtain ⟨ret, s₁⟩ := selected
  dsimp only
  generalize (s₁.layer.nextNumber.epoch != 0) = isProtected
  generalize dtls13GetRlHeaderLength isProtected + _ + _ = outputSize
  have hroom := hselect.trans (keeps_checkAvailableSize t outputSize s₁)
  generalize s₁.checkAvailableSize t outputSize = room at hroom ⊢
  obtain ⟨ret', s₂⟩ := room
  dsimp only at hroom ⊢
  split_ifs
  · exact hselect
  · exact hroom
  · have hsealed := hroom.trans (hseal isProtected outputSize (ackMessage s₂.seenRecords) s₂)
    split
    · rename_i hout
      rw [hout] at hsealed
      exact hsealed
    · rename_i record s₃ hout
      rw [hout] at hsealed
      obtain ⟨bytes, hsend⟩ := sendBuffered_eq t.flush { s₃.buffer record with
        seenRecords := [], acks := ackMessage s₃.seenRecords :: s₃.acks }
      rw [hsend]
      exact hsealed.trans (hflush bytes s₃)

/-- Without memory the list stays as it is. -/
theorem rtxAddAck_of_ne {memory : Bool} {seen : List RecordNumber}
    (h : (rtxAddAck memory rn seen).1 ≠ 0) : (rtxAddAck memory rn seen).2 = seen := by
  fun_induction rtxAddAck memory rn seen with grind

/-- A record is noted, or its message is not handled. -/
theorem recordRecvd_cases (memory : Bool) (rn : RecordNumber) (msg : List UInt8)
    (s : Dtls13Session κ) :
    Takes [] [] s (s.recordRecvd memory rn msg).2 ∨
      Takes [(rn, msg)] [] s (s.recordRecvd memory rn msg).2 := by
  unfold recordRecvd
  dsimp only
  split_ifs with hret
  · refine .inl ⟨fun _ h => ?_, Nat.le_refl _, List.Subset.refl _, rfl, rfl⟩
    exact { h with
      seen_sorted := RecordNumber.sorted_rtxAddAck memory rn h.seen_sorted
      seen_got := fun x hx => h.seen_got x (by rwa [rtxAddAck_of_ne hret] at hx) }
  · refine .inr ⟨fun _ h => ?_, Nat.le_refl _, List.Subset.refl _, rfl, rfl⟩
    exact { h with
      seen_sorted := RecordNumber.sorted_rtxAddAck memory rn h.seen_sorted
      seen_got := by
        intro x hx
        rcases RecordNumber.mem_of_mem_rtxAddAck hx with rfl | hx
        · exact ⟨msg, List.mem_cons_self⟩
        · exact (h.seen_got x hx).imp fun _ => List.mem_cons_of_mem _
      acks_got := fun bytes hbytes numbers length hread x hx =>
        (h.acks_got bytes hbytes numbers length hread x hx).imp fun _ => List.mem_cons_of_mem _ }

end Dtls13Session
end LitexDtls.WolfSsl
