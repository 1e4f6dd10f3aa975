import LitexDtls.WolfSsl.RecordRuns
import LitexDtls.WolfSsl.Sending

/-!
# The numbers of an epoch

Whatever a session does to its table of epochs, a number of an epoch is not given to two
records, as long as no epoch is entered again after its numbers were used and its slot was taken
from it, and the counters do not wrap. The keys do not come into it.
-/
namespace LitexDtls.WolfSsl
open Library

variable {κ : Type}

/-- The slot counts the numbers of epoch `n`. -/
def Dtls13Epoch.Counts (e : Dtls13Epoch κ) (n : UInt64) : Prop :=
  e.isValid = true ∧ e.epochNumber = n

/-- What a slot says about numbers. -/
def Dtls13Epoch.count (e : Dtls13Epoch κ) : Bool × UInt64 × UInt64 :=
  (e.isValid, e.epochNumber, e.nextSeqNumber)

theorem Dtls13Epoch.Counts.congr {e e' : Dtls13Epoch κ} {n : UInt64} (h : e'.Counts n)
    (hcount : e'.count = e.count) : e.Counts n := by
  simp only [count, Prod.mk.injEq] at hcount
  exact ⟨hcount.1 ▸ h.1, hcount.2.1 ▸ h.2⟩

theorem Dtls13Epoch.HasSent.congr {e e' : Dtls13Epoch κ} {S : Set UInt64} (h : e.HasSent S)
    (hcount : e'.count = e.count) : e'.HasSent S := by
  simp only [count, Prod.mk.injEq] at hcount
  intro n hn
  rw [hcount.2.2]
  exact h n hn

/-- A number as a use of its epoch. -/
def RecordNumber.use (rn : RecordNumber) : UInt64 × UInt64 := (rn.epoch, rn.seq)

namespace RecordLayer

/-- The numbers in `used` have been given out, and no counter is above `attempts`. -/
structure Numbered (s : RecordLayer κ) (used : List (UInt64 × UInt64)) (attempts : Nat) :
    Prop where
  blank : ∀ i, (s.slot i).isValid = false → (s.slot i).nextSeqNumber = 0
  encrypt_valid : (s.slot s.dtls13EncryptEpoch).isValid = true
  counts : ∃ entered, KeyUse (fun i => (s.slot i).Counts) (fun i => (s.slot i).HasSent) used entered
  low : ∀ i, (s.slot i).nextSeqNumber.toNat ≤ attempts

variable {s s' : RecordLayer κ} {used : List (UInt64 × UInt64)} {attempts : Nat}

/-- The counters are left as they are, and a slot in use encrypts. -/
theorem Numbered.congr (h : s.Numbered used attempts)
    (hcount : ∀ i, (s'.slot i).count = (s.slot i).count)
    (hencrypt : (s.slot s'.dtls13EncryptEpoch).isValid = true) :
    s'.Numbered used attempts where
  blank i hi := by
    have := hcount i
    simp only [Dtls13Epoch.count, Prod.mk.injEq] at this
    rw [this.2.2]
    exact h.blank i (this.1 ▸ hi)
  encrypt_valid := (congrArg Prod.fst (hcount s'.dtls13EncryptEpoch)).trans hencrypt
  counts := h.counts.imp fun _ hcounts => hcounts.mono
    (fun i _ hi => ⟨hi.congr (hcount i), fun _ hS => hS.congr (hcount i)⟩) (List.Subset.refl _)
  low i := by
    have := hcount i
    simp only [Dtls13Epoch.count, Prod.mk.injEq] at this
    rw [this.2.2]
    exact h.low i

theorem Numbered.next_fresh (h : s.Numbered used attempts) :
    s.nextNumber.use ∉ used := by
  intro hmem
  obtain ⟨_, hcounts⟩ := h.counts
  have hsent := hcounts.knows (i := s.dtls13EncryptEpoch) ⟨h.encrypt_valid, rfl⟩ _ hmem
  exact UInt64.lt_irrefl _ hsent

/-- The table is the same. -/
theorem Numbered.of_eq (h : s.Numbered used attempts)
    (hslots : s'.dtls13Epochs = s.dtls13Epochs)
    (hencrypt : (s.slot s'.dtls13EncryptEpoch).isValid = true) :
    s'.Numbered used attempts := by
  apply h.congr _ hencrypt
  intro i
  rw [slot, slot, hslots]

theorem Numbered.setEpochKeys (h : s.Numbered used attempts) (n : UInt64)
    (side : EncryptSide) : (s.setEpochKeys n side).2.Numbered used attempts := by
  unfold RecordLayer.setEpochKeys
  cases hget : s.getEpoch n with
  | none => exact h
  | some i =>
    have hvalid := (getEpoch_eq_some hget).2
    have hnew : (s.slot (if side.enc then i else s.dtls13EncryptEpoch)).isValid = true := by
      split_ifs
      · exact hvalid
      · exact h.encrypt_valid
    by_cases hside : (s.slot i).side ≠ some .encryptAndDecryptSide ∧ (s.slot i).side ≠ some side
    · simpa only [if_pos hside] using h
    simp only [if_neg hside]
    by_cases hzero : n = 0
    · rw [if_pos hzero]
      exact h.of_eq rfl hnew
    · rw [if_neg hzero]
      exact h.of_eq rfl hnew

/-- The next number of the epoch that encrypts is given out. -/
theorem Numbered.advance (h : s.Numbered used attempts)
    (hattempts : attempts + 1 < 18446744073709551616) {g : Dtls13Epoch κ → Dtls13Epoch κ}
    (hg : g (s.slot s.dtls13EncryptEpoch) = { s.slot s.dtls13EncryptEpoch with
      nextSeqNumber := (s.slot s.dtls13EncryptEpoch).nextSeqNumber + 1 })
    (hslots : s'.dtls13Epochs = (s.modifySlot s.dtls13EncryptEpoch g).dtls13Epochs)
    (hencrypt : s'.dtls13EncryptEpoch = s.dtls13EncryptEpoch) :
    s'.Numbered (s.nextNumber.use :: used) (attempts + 1) := by
  have hlow := h.low s.dtls13EncryptEpoch
  have hnext : ((s.slot s.dtls13EncryptEpoch).nextSeqNumber + 1).toNat =
      (s.slot s.dtls13EncryptEpoch).nextSeqNumber.toNat + 1 := by
    apply toNat_succ
    intro htop
    rw [htop] at hlow
    exact absurd (Nat.lt_of_le_of_lt (Nat.add_le_add_right hlow 1) hattempts) (by decide)
  have hslot (i : Nat) : s'.slot i = if i = s.dtls13EncryptEpoch then
      { s.slot s.dtls13EncryptEpoch with
        nextSeqNumber := (s.slot s.dtls13EncryptEpoch).nextSeqNumber + 1 } else s.slot i := by
    rw [slot, hslots, ← hg]
    exact slot_modifySlot g (lt_length_of_isValid h.encrypt_valid) i
  have hlt : (s.slot s.dtls13EncryptEpoch).nextSeqNumber <
      (s.slot s.dtls13EncryptEpoch).nextSeqNumber + 1 := by
    rw [UInt64.lt_iff_toNat_lt, hnext]
    omega
  exact {
    blank := by
      intro i hi
      rw [hslot] at hi ⊢
      split_ifs at hi ⊢
      · exact absurd (h.encrypt_valid.symm.trans hi) (by decide)
      · exact h.blank i hi
    encrypt_valid := by
      rw [hencrypt, hslot, if_pos rfl]
      exact h.encrypt_valid
    counts := by
      have hi : (s.slot s.dtls13EncryptEpoch).Counts s.nextNumber.epoch := ⟨h.encrypt_valid, rfl⟩
      refine h.counts.imp fun _ hcounts => hcounts.use (n := s.nextNumber.seq) hi ?_ ?_ ?_
      · intro hS m hm
        rw [hslot, if_pos rfl]
        rcases hm with rfl | hm
        · exact hlt
        · exact UInt64.lt_trans (hS m hm) hlt
      · intro j hj S hS
        rwa [hslot, if_neg hj]
      · intro j k hj
        rw [hslot] at hj
        split_ifs at hj with heq
        · exact heq ▸ hj
        · exact hj
    low := by
      intro i
      rw [hslot]
      split_ifs
      · dsimp only
        omega
      · exact Nat.le_succ_of_le (h.low i) }

theorem Numbered.mono (h : s.Numbered used attempts) {used' : List (UInt64 × UInt64)}
    {attempts' : Nat} (hused : used' ⊆ used) (hattempts : attempts ≤ attempts') :
    s.Numbered used' attempts' where
  blank := h.blank
  encrypt_valid := h.encrypt_valid
  counts := h.counts.imp fun _ hcounts =>
    { hcounts with
      knows := fun hi n hn => hcounts.knows hi n (hused hn)
      used_given := fun hn => hcounts.used_given (hused hn) }
  low i := Nat.le_trans (h.low i) hattempts

/-! ## Entering an epoch -/

/-- What `Dtls13NewEpoch` does to the counters: nothing, or one slot begins to count the new
epoch. -/
theorem count_newEpoch (hblank : ∀ i, (s.slot i).isValid = false → (s.slot i).nextSeqNumber = 0)
    (n : UInt64) (side : EncryptSide) (keys : DerivedKeys κ) :
    (∀ i, ((s.newEpoch n side keys).2.slot i).count = (s.slot i).count) ∨
      s.getEpoch n = none ∧ ∃ j, ∀ i, ((s.newEpoch n side keys).2.slot i).count =
        if i = j then (true, n, 0) else (s.slot i).count := by
  have holder (t : RecordLayer κ) (m : UInt64) (i : Nat) :
      ((t.setOlderEpochSide m .encryptSideOnly).slot i).count = (t.slot i).count := by
    rw [slot_setOlderEpochSide]
    split_ifs <;> rfl
  have henter (t : RecordLayer κ) (j : Nat) (i : Nat) :
      ((t.enterEpoch n side keys j).slot i).count = ((t.enterKeys n side keys j).slot i).count := by
    unfold RecordLayer.enterEpoch
    dsimp only
    split
    · exact holder _ _ _
    · rfl
  unfold RecordLayer.newEpoch
  cases hget : s.getEpoch n with
  | some j =>
    obtain ⟨-, hvalid⟩ := getEpoch_eq_some hget
    refine .inl fun i => ?_
    rw [henter]
    change ((s.modifySlot j _).slot i).count = _
    rw [slot_modifySlot _ (lt_length_of_isValid hvalid)]
    split_ifs with heq
    · subst heq
      unfold Dtls13Epoch.enter
      have hvalid' : ((s.slot i).copyKeys side keys).isValid = true := hvalid
      rw [if_neg (by simp [hvalid'])]
      split_ifs <;> rfl
    · rfl
  | none =>
    cases hfree : s.newEpochSlot with
    | none => exact .inl fun _ => rfl
    | some j =>
      have hj := (newEpochSlot_eq_some hfree).1
      refine .inr ⟨rfl, j, fun i => ?_⟩
      rw [henter]
      change (((s.modifySlot j _).modifySlot j _).slot i).count = _
      rw [slot_modifySlot _ (by simpa [modifySlot] using hj), slot_modifySlot _ hj,
        slot_modifySlot _ hj, if_pos rfl]
      by_cases heq : i = j
      · rw [if_pos heq, if_pos heq]
        by_cases hvalid : (s.slot j).isValid = true
        · rw [if_pos hvalid]
          rfl
        · have hfalse : (s.slot j).isValid = false := by simpa using hvalid
          have hcopy : ((s.slot j).copyKeys side keys).isValid = false := hfalse
          rw [if_neg hvalid, Dtls13Epoch.enter, if_pos hcopy]
          simp [Dtls13Epoch.count, Dtls13Epoch.copyKeys, hblank j hfalse]
      · rw [if_neg heq, if_neg heq, if_neg heq]

theorem Numbered.newEpoch (h : s.Numbered used attempts) {n : UInt64}
    (hfresh : s.getEpoch n = none → ∀ seq, (n, seq) ∉ used) (side : EncryptSide)
    (keys : DerivedKeys κ) : (s.newEpoch n side keys).2.Numbered used attempts := by
  have hencrypt : (s.newEpoch n side keys).2.dtls13EncryptEpoch = s.dtls13EncryptEpoch := by
    unfold RecordLayer.newEpoch RecordLayer.enterEpoch
    split
    · dsimp only
      split <;> rfl
    · split
      · rfl
      · dsimp only
        split <;> rfl
  rcases count_newEpoch h.blank n side keys with hcount | ⟨hnone, j, hcount⟩
  · exact h.congr hcount (by rw [hencrypt]; exact h.encrypt_valid)
  · have hother (i : Nat) (hi : i ≠ j) :
        ((s.newEpoch n side keys).2.slot i).count = (s.slot i).count := by
      rw [hcount, if_neg hi]
    have hnew : ((s.newEpoch n side keys).2.slot j).count = (true, n, 0) := by
      rw [hcount, if_pos rfl]
    have hnew' := hnew
    simp only [Dtls13Epoch.count, Prod.mk.injEq] at hnew'
    obtain ⟨hvalid, hnumber, hzero⟩ := hnew'
    exact {
      blank := by
        intro i hi
        by_cases hij : i = j
        · rw [hij, hvalid] at hi
          cases hi
        · have := hother i hij
          simp only [Dtls13Epoch.count, Prod.mk.injEq] at this
          rw [this.2.2]
          exact h.blank i (this.1 ▸ hi)
      encrypt_valid := by
        rw [hencrypt]
        by_cases hij : s.dtls13EncryptEpoch = j
        · rw [hij, hvalid]
        · exact (congrArg Prod.fst (hother _ hij)).trans h.encrypt_valid
      counts := by
        obtain ⟨entered, hcounts⟩ := h.counts
        -- the epoch has no slot and no numbers, so it does not matter that it was entered before
        have hrestrict := hcounts.restrict (p := fun k => decide (k ≠ n))
          (fun i k hi => decide_eq_true fun hk =>
            getEpoch_eq_none hnone hi.1 (hi.2.trans hk))
          (fun k seq hn => decide_eq_true fun hk => hfresh hnone seq (hk ▸ hn))
        refine ⟨_, hrestrict.give (k := n) (i := j) (by simp) (fun _ => False.elim)
          fun i k hi => ?_⟩
        by_cases hij : i = j
        · subst hij
          exact .inl ⟨rfl, hi.2.symm.trans hnumber⟩
        · exact .inr ⟨hij, hi.congr (hother i hij), fun _ hS => hS.congr (hother i hij)⟩
      low := by
        intro i
        by_cases hij : i = j
        · rw [hij, hzero]
          exact Nat.zero_le _
        · have := hother i hij
          simp only [Dtls13Epoch.count, Prod.mk.injEq] at this
          rw [this.2.2]
          exact h.low i }

/-! ## Runs -/

theorem numbered_init (serverEnd : Bool) (attempts : Nat) :
    (init serverEnd : RecordLayer κ).Numbered [] attempts := by
  have hslot (i : Nat) : ((init serverEnd : RecordLayer κ).slot i).nextSeqNumber = 0 ∧
      (((init serverEnd : RecordLayer κ).slot i).isValid = true → i = 0) := by
    rcases i with _ | _ | _ | _ | i
    · exact ⟨rfl, fun _ => rfl⟩
    all_goals exact ⟨rfl, fun h => nomatch h⟩
  exact {
    blank := fun i _ => (hslot i).1
    encrypt_valid := rfl
    counts := ⟨[0], {
      one_place := fun hi hj => ((hslot _).2 hi.1).trans ((hslot _).2 hj.1).symm
      one_key := fun hk hk' => hk.2.symm.trans hk'.2
      knows := fun _ _ hn => absurd hn List.not_mem_nil
      reads_given := fun {i k} hi => by
        obtain rfl := (hslot i).2 hi.1
        exact List.mem_singleton.mpr hi.2.symm
      used_given := fun hn => absurd hn List.not_mem_nil }⟩
    low := fun i => by
      rw [(hslot i).1]
      exact Nat.zero_le _ }

/-- The window of an epoch is not about the numbers of this side. -/
theorem Numbered.modifyPeer (h : s.Numbered used attempts) (i : Nat) (peer : PeerWindow) :
    (s.modifySlot i fun e => { e with peer := peer }).Numbered used attempts := by
  refine h.congr (fun j => ?_) h.encrypt_valid
  by_cases hi : i < s.dtls13Epochs.length
  · rw [slot_modifySlot _ hi]
    split_ifs with hji
    · rw [hji]
      rfl
    · rfl
  · rw [slot, modifySlot, List.modify_eq_self (Nat.not_lt.mp hi)]
    rfl

theorem Numbered.updateWindow (h : s.Numbered used attempts) (epoch seq : UInt64) :
    (s.updateWindow epoch seq).2.Numbered used attempts := by
  unfold RecordLayer.updateWindow
  extract_lets e
  cases e with
  | none => exact h
  | some i => exact h.modifyPeer i _

theorem Numbered.accept (h : s.Numbered used attempts) (epoch seq : UInt64) :
    (s.accept epoch seq).Numbered used attempts := by
  unfold RecordLayer.accept
  split_ifs
  · exact h
  · exact h.of_eq rfl h.encrypt_valid

theorem Numbered.processOneRecord (h : s.Numbered used attempts) (epoch seq : UInt64)
    (type : UInt8) (data : List UInt8) :
    (s.processOneRecord epoch seq type data).2.Numbered used attempts := by
  have hupdate := h.updateWindow epoch seq
  unfold RecordLayer.processOneRecord
  generalize s.updateWindow epoch seq = updated at hupdate ⊢
  dsimp only
  split_ifs
  · exact h
  · exact h.accept epoch seq
  · exact hupdate
  · exact hupdate.accept epoch seq

theorem Numbered.selectEpoch (h : s.Numbered used attempts) (epoch : UInt64) :
    (s.selectEpoch epoch).2.Numbered used attempts := by
  unfold RecordLayer.selectEpoch
  split_ifs
  · exact h
  · exact h.setEpochKeys epoch .decryptSideOnly

theorem Numbered.getDtls13RecordHeader (h : s.Numbered used attempts) (c : RecordCipher κ)
    (input : List UInt8) : (s.getDtls13RecordHeader c input).2.Numbered used attempts := by
  unfold RecordLayer.getDtls13RecordHeader
  split_ifs
  · exact h
  · split
    · exact h
    · rename_i epoch _
      have hselect := h.selectEpoch epoch
      generalize s.selectEpoch epoch = selected at hselect ⊢
      dsimp only
      split_ifs
      · exact h
      · exact hselect
      · exact hselect

/-- What comes in leaves the counters alone. -/
theorem Numbered.recvProtected (h : s.Numbered used attempts) (c : RecordCipher κ)
    (input : List UInt8) : (s.recvProtected c input).2.2.Numbered used attempts := by
  have hheader := h.getDtls13RecordHeader c input
  unfold RecordLayer.recvProtected
  generalize s.getDtls13RecordHeader c input = read at hheader ⊢
  obtain ⟨header, t⟩ := read
  cases header with
  | error ret => exact hheader
  | ok cur =>
    dsimp only at hheader ⊢
    split_ifs
    · exact hheader
    cases t.deprotect c cur (input.drop cur.header.length) with
    | error outcome => exact hheader
    | ok message => exact hheader.processOneRecord _ _ _ _

theorem Numbered.build (h : s.Numbered used attempts)
    (hattempts : attempts + 1 < 18446744073709551616) (c : RecordCipher κ) (outSz : Nat)
    (type : UInt8) (input : List UInt8) :
    (s.buildTls13Message c outSz type input).2.Numbered used (attempts + 1) := by
  unfold buildTls13Message
  split_ifs
  · exact h.mono (List.Subset.refl _) (Nat.le_succ _)
  · dsimp only
    refine Numbered.mono ?_ (List.subset_cons_self s.nextNumber.use _) (Nat.le_refl _)
    exact h.advance hattempts (g := fun e => { e with nextSeqNumber := e.nextSeqNumber + 1 })
      rfl rfl rfl

/-- What the record layer is asked to do does not give a number to two records. -/
theorem Numbered.step (h : s.Numbered used attempts)
    (hattempts : attempts + 1 < 18446744073709551616) (c : RecordCipher κ) {ev : RecordEvent κ}
    (hfresh : ∀ {n side keys}, ev = .newEpoch n side keys → s.getEpoch n = none →
      ∀ seq, (n, seq) ∉ used) :
    (RecordLayer.step c s ev).Numbered used (attempts + 1) := by
  have hmore {t : RecordLayer κ} (ht : t.Numbered used attempts) : t.Numbered used (attempts + 1) :=
    ht.mono (List.Subset.refl _) (Nat.le_succ _)
  cases ev with
  | newEpoch n side keys => exact hmore (h.newEpoch (hfresh rfl) side keys)
  | setEpochKeys n side => exact hmore (h.setEpochKeys n side)
  | setEpochs own peer => exact hmore (h.of_eq rfl h.encrypt_valid)
  | setOptions done retain stateful => exact hmore (h.of_eq rfl h.encrypt_valid)
  | build outSz type input => exact h.build hattempts c outSz type input
  | recvProtected input => exact hmore (h.recvProtected c input)
  | recvPlaintext seq type data =>
    refine hmore ?_
    change (s.recvPlaintext seq type data).2.Numbered used attempts
    unfold recvPlaintext
    dsimp only
    split_ifs
    · exact h.selectEpoch 0
    · exact (h.selectEpoch 0).processOneRecord _ _ _ _

end RecordLayer
end LitexDtls.WolfSsl
