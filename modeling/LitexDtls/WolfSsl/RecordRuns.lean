import Mathlib.Data.Set.Image
import LitexDtls.Library.KeyUse
import LitexDtls.Library.Run
import LitexDtls.WolfSsl.Records

/-!
# Runs of the record layer

Any interleaving of new epochs, changes of keys, and records sealed and received, of what the
peer has sent or of anything else. As long as each key goes to one epoch, the slot of an epoch in
use is not taken away from it, and the counters are not near their end (`Allowed`), no number is
ever used twice with a key: neither to seal (`used_nodup`) nor to accept a record
(`accepted_nodup`). A record that was sealed is accepted if and only if it is new and not too old
(`sealed_accepted_iff`).
-/
namespace LitexDtls.WolfSsl
open Library

variable {κ : Type}

/-- What the record layer is asked to do. -/
inductive RecordEvent (κ : Type) where
  | newEpoch (epochNumber : UInt64) (side : EncryptSide) (keys : DerivedKeys κ)
  | setEpochKeys (epochNumber : UInt64) (side : EncryptSide)
  | setEpochs (dtls13Epoch dtls13PeerEpoch : UInt64)
  | setOptions (handShakeDone dtlsHsRetain dtlsStateful : Bool)
  | build (outSz : Nat) (type : UInt8) (input : List UInt8)
  | recvProtected (input : List UInt8)
  | recvPlaintext (seq : UInt64) (type : UInt8) (data : List UInt8)
  deriving DecidableEq, Repr

namespace RecordLayer

/-- A session as `InitSSL` sets it up: epoch 0 is there for both sides. -/
def init (serverEnd : Bool) : RecordLayer κ where
  dtls13Epochs := { Dtls13Epoch.cleared with isValid := true, side := some .encryptAndDecryptSide } ::
    List.replicate 3 .cleared
  dtls13Epoch := 0
  dtls13PeerEpoch := 0
  dtls13EncryptEpoch := 0
  dtls13DecryptEpoch := 0
  encrypt := none
  decrypt := none
  handShakeDone := false
  dtlsHsRetain := false
  dtlsStateful := false
  serverEnd := serverEnd
  used := []
  accepted := []
  writeGiven := []
  readGiven := []

def step (c : RecordCipher κ) (s : RecordLayer κ) : RecordEvent κ → RecordLayer κ
  | .newEpoch n side keys => (s.newEpoch n side keys).2
  | .setEpochKeys n side => (s.setEpochKeys n side).2
  | .setEpochs own peer => { s with dtls13Epoch := own, dtls13PeerEpoch := peer }
  | .setOptions done retain stateful =>
    { s with handShakeDone := done, dtlsHsRetain := retain, dtlsStateful := stateful }
  | .build outSz type input => (s.buildTls13Message c outSz type input).2
  | .recvProtected input => (s.recvProtected c input).2.2
  | .recvPlaintext seq type data => (s.recvPlaintext seq type data).2

/-- A key that is entered for an epoch is the one it has, or a new one for an epoch that has
none. -/
def Suits (key : κ) (given : List κ) (old : Option κ) : Prop :=
  old = some key ∨ key ∉ given ∧ old = none

instance [DecidableEq κ] (key : κ) (given : List κ) (old : Option κ) :
    Decidable (Suits key given old) := inferInstanceAs (Decidable (_ ∨ _))

/-- The epoch that is entered: the one of its number, or an empty slot. -/
def epochOf (s : RecordLayer κ) (n : UInt64) : Dtls13Epoch κ :=
  ((s.getEpoch n).map s.slot).getD .cleared

/-- What a step has to be for the numbers to stay apart. Keys are entered for one epoch only,
and a slot that is taken for a new epoch is not the one that encrypts or decrypts. No counter is
near its end, nothing is sealed in epoch 0, and a client that receives has been through
`wolfSSL_connect_TLSv13`, which makes it stateful. -/
def Allowed (s : RecordLayer κ) : RecordEvent κ → Prop
  | .newEpoch n side keys =>
    n ≠ 0 ∧ (side.enc = true → Suits keys.write s.writeGiven (s.epochOf n).writeKeys) ∧
      (side.dec = true → Suits keys.read s.readGiven (s.epochOf n).readKeys) ∧
      (s.getEpoch n = none →
        s.newEpochSlot ≠ some s.dtls13EncryptEpoch ∧ s.newEpochSlot ≠ some s.dtls13DecryptEpoch)
  | .build .. => (s.slot s.dtls13EncryptEpoch).epochNumber ≠ 0 ∧
      (s.slot s.dtls13EncryptEpoch).nextSeqNumber ≠ 0xffffffffffffffff
  | .recvProtected _ => (s.serverEnd = false → s.dtlsStateful = true) ∧
      ∀ e ∈ s.dtls13Epochs, e.peer.nextPeerSeqNumber.toNat + 65536 < 18446744073709551616
  | _ => True

instance [DecidableEq κ] (s : RecordLayer κ) : ∀ ev, Decidable (s.Allowed ev)
  | .newEpoch .. => inferInstanceAs (Decidable (_ ∧ _))
  | .build .. => inferInstanceAs (Decidable (_ ∧ _))
  | .recvProtected _ => inferInstanceAs (Decidable ((_ → _) ∧ ∀ e ∈ s.dtls13Epochs, _))
  | .setEpochKeys .. | .setEpochs .. | .setOptions .. | .recvPlaintext .. =>
    inferInstanceAs (Decidable True)

end RecordLayer

/-! ## The invariant -/

/-- A slot is empty, or it has a key when it may decrypt, and has seen no record without one. -/
structure Dtls13Epoch.Proper (e : Dtls13Epoch κ) : Prop where
  blank : e.isValid = false → e = .cleared
  sided : e.isValid = true → e.side ≠ none
  keyed : e.isValid = true → e.epochNumber ≠ 0 → e.decrypts = true → e.readKeys ≠ none
  untouched : e.isValid = true → e.epochNumber ≠ 0 → e.readKeys = none → e.peer = .fresh

/-- The epoch can decrypt with the key. -/
def Dtls13Epoch.Reads (e : Dtls13Epoch κ) (k : κ) : Prop :=
  e.isValid = true ∧ e.epochNumber ≠ 0 ∧ e.readKeys = some k

/-- The epoch can encrypt with the key. -/
def Dtls13Epoch.Writes (e : Dtls13Epoch κ) (k : κ) : Prop :=
  e.isValid = true ∧ e.epochNumber ≠ 0 ∧ e.writeKeys = some k

/-- The window of the epoch is right for the numbers in `seen`. -/
def Dtls13Epoch.HasSeen (e : Dtls13Epoch κ) (seen : Set UInt64) : Prop :=
  e.peer.Tracks (UInt64.toNat '' seen)

/-- The numbers in `sent` are behind the epoch. -/
def Dtls13Epoch.HasSent (e : Dtls13Epoch κ) (sent : Set UInt64) : Prop :=
  ∀ n ∈ sent, n < e.nextSeqNumber

namespace RecordLayer

structure Sound (s : RecordLayer κ) : Prop where
  proper : ∀ i, (s.slot i).Proper
  encrypt_valid : (s.slot s.dtls13EncryptEpoch).isValid = true
  decrypt_valid : (s.slot s.dtls13DecryptEpoch).isValid = true
  encrypt_eq : (s.slot s.dtls13EncryptEpoch).epochNumber ≠ 0 →
    s.encrypt = none ∨ s.encrypt = (s.slot s.dtls13EncryptEpoch).writeKeys
  decrypt_eq : (s.slot s.dtls13DecryptEpoch).epochNumber ≠ 0 →
    s.decrypt = (s.slot s.dtls13DecryptEpoch).readKeys ∧ s.decrypt ≠ none
  writes : KeyUse (fun i => (s.slot i).Writes) (fun i => (s.slot i).HasSent) s.used s.writeGiven
  reads : KeyUse (fun i => (s.slot i).Reads) (fun i => (s.slot i).HasSeen) s.accepted s.readGiven
  used_nodup : s.used.Nodup
  accepted_nodup : s.accepted.Nodup

variable {s : RecordLayer κ} {c : RecordCipher κ}

theorem proper_cleared : (Dtls13Epoch.cleared : Dtls13Epoch κ).Proper :=
  ⟨fun _ => rfl, nofun, nofun, nofun⟩

theorem sound_init (serverEnd : Bool) : (init serverEnd : RecordLayer κ).Sound := by
  have hslot (i : Nat) : (init serverEnd : RecordLayer κ).slot i = .cleared ∨
      ((init serverEnd : RecordLayer κ).slot i).isValid = true ∧
        ((init serverEnd : RecordLayer κ).slot i).epochNumber = 0 ∧
          ((init serverEnd : RecordLayer κ).slot i).side ≠ none := by
    match i with
    | 0 => exact .inr ⟨rfl, rfl, nofun⟩
    | 1 | 2 | 3 | i + 4 => exact .inl rfl
  refine ⟨fun i => ?_, rfl, rfl, fun h => absurd rfl h, fun h => absurd rfl h,
    .empty (fun i k h => ?_) _, .empty (fun i k h => ?_) _, List.nodup_nil, List.nodup_nil⟩
  · rcases hslot i with h | ⟨hvalid, hzero, hside⟩
    · exact h ▸ proper_cleared
    · exact ⟨fun h => by simp [hvalid] at h, fun _ => hside, fun _ h => absurd hzero h,
        fun _ h => absurd hzero h⟩
  all_goals
    rcases hslot i with hclear | ⟨-, hzero, -⟩
    · rw [hclear] at h
      exact nomatch h.1
    · exact h.2.1 hzero

/-! ### Keys and sides -/

/-- Other slots may become those that encrypt and decrypt, with their keys. -/
theorem Sound.retarget (h : s.Sound) {i j : Nat} {ki kj : Option κ}
    (hi : (s.slot i).isValid = true) (hj : (s.slot j).isValid = true)
    (hki : (s.slot i).epochNumber ≠ 0 → ki = none ∨ ki = (s.slot i).writeKeys)
    (hkj : (s.slot j).epochNumber ≠ 0 → kj = (s.slot j).readKeys ∧ kj ≠ none) :
    ({ s with
      dtls13EncryptEpoch := i
      dtls13DecryptEpoch := j
      encrypt := ki
      decrypt := kj } : RecordLayer κ).Sound :=
  { h with encrypt_valid := hi, decrypt_valid := hj, encrypt_eq := hki, decrypt_eq := hkj }

theorem Sound.setEpochKeys (h : s.Sound) (n : UInt64) (side : EncryptSide) :
    (s.setEpochKeys n side).2.Sound := by
  unfold RecordLayer.setEpochKeys
  cases hget : s.getEpoch n with
  | none => exact h
  | some i =>
    obtain ⟨rfl, hvalid⟩ := getEpoch_eq_some hget
    by_cases hside : (s.slot i).side ≠ some .encryptAndDecryptSide ∧ (s.slot i).side ≠ some side
    · simpa only [if_pos hside] using h
    -- what may decrypt has a key
    have hkeys (hzero : (s.slot i).epochNumber ≠ 0) (hdec : side.dec = true) :
        (s.slot i).readKeys ≠ none := by
      apply (h.proper i).keyed hvalid hzero
      by_cases hboth : (s.slot i).side = some .encryptAndDecryptSide
      · rw [Dtls13Epoch.decrypts, hboth]
        rfl
      · have hsame : (s.slot i).side = some side := by tauto
        rwa [Dtls13Epoch.decrypts, hsame]
    simp only [if_neg hside]
    by_cases hzero : (s.slot i).epochNumber = 0
    · rw [if_pos hzero]
      apply h.retarget <;> split_ifs
      · exact hvalid
      · exact h.encrypt_valid
      · exact hvalid
      · exact h.decrypt_valid
      · exact fun hne => absurd hzero hne
      · exact h.encrypt_eq
      · exact fun hne => absurd hzero hne
      · exact h.decrypt_eq
    · rw [if_neg hzero]
      apply h.retarget <;> split_ifs with hdir
      · exact hvalid
      · exact h.encrypt_valid
      · exact hvalid
      · exact h.decrypt_valid
      · exact fun _ => .inr rfl
      · exact h.encrypt_eq
      · exact fun hne => ⟨rfl, hkeys hne hdir⟩
      · exact h.decrypt_eq

/-- Older epochs give up decrypting. -/
theorem Sound.setOlderEpochSide (h : s.Sound) (n : UInt64) :
    (s.setOlderEpochSide n .encryptSideOnly).Sound := by
  have hslot (j : Nat) : ∃ side, (s.setOlderEpochSide n .encryptSideOnly).slot j =
      { s.slot j with side := side } ∧ (side = (s.slot j).side ∨
        side = some .encryptSideOnly ∧ (s.slot j).isValid = true) := by
    rw [slot_setOlderEpochSide]
    split_ifs with hold
    · exact ⟨_, rfl, .inr ⟨rfl, (Bool.and_eq_true_iff.mp hold).1⟩⟩
    · exact ⟨_, rfl, .inl rfl⟩
  have hproper (j : Nat) : ((s.setOlderEpochSide n .encryptSideOnly).slot j).Proper := by
    obtain ⟨side, hj, rfl | ⟨rfl, hvalid⟩⟩ := hslot j
    · exact hj ▸ h.proper j
    · rw [hj]
      exact ⟨fun hblank => by simp [hvalid] at hblank, nofun, nofun, (h.proper j).untouched⟩
  have hfields (j : Nat) : ∃ side, (s.setOlderEpochSide n .encryptSideOnly).slot j =
      { s.slot j with side := side } := (hslot j).imp fun _ hj => hj.1
  obtain ⟨_, hp⟩ := hfields s.dtls13DecryptEpoch
  obtain ⟨_, hq⟩ := hfields s.dtls13EncryptEpoch
  exact {
    proper := hproper
    encrypt_valid := hq ▸ h.encrypt_valid
    decrypt_valid := hp ▸ h.decrypt_valid
    encrypt_eq := hq ▸ h.encrypt_eq
    decrypt_eq := hp ▸ h.decrypt_eq
    writes := by
      apply h.writes.mono _ (List.Subset.refl _)
      intro j k hj
      obtain ⟨_, hj'⟩ := hfields j
      rw [hj'] at hj ⊢
      exact ⟨hj, fun _ hS => hS⟩
    reads := by
      apply h.reads.mono _ (List.Subset.refl _)
      intro j k hj
      obtain ⟨_, hj'⟩ := hfields j
      rw [hj'] at hj ⊢
      exact ⟨hj, fun _ hS => hS⟩
    used_nodup := h.used_nodup
    accepted_nodup := h.accepted_nodup }

/-- A slot that neither encrypts nor decrypts may be cleared. -/
theorem Sound.clear (h : s.Sound) {i : Nat} (hi : i < s.dtls13Epochs.length)
    (henc : i ≠ s.dtls13EncryptEpoch) (hdec : i ≠ s.dtls13DecryptEpoch) :
    (s.modifySlot i fun e => if e.isValid then .cleared else e).Sound ∧
      (s.modifySlot i fun e => if e.isValid then .cleared else e).slot i = .cleared := by
  have hslot (j : Nat) : (s.modifySlot i fun e => if e.isValid then .cleared else e).slot j =
      if j = i then .cleared else s.slot j := by
    rw [slot_modifySlot _ hi]
    split_ifs with hji hvalid
    · rfl
    · exact (h.proper i).blank (by simpa using hvalid)
    · rfl
  have hq := (hslot s.dtls13EncryptEpoch).trans (if_neg henc.symm)
  have hp := (hslot s.dtls13DecryptEpoch).trans (if_neg hdec.symm)
  refine ⟨?_, (hslot i).trans (if_pos rfl)⟩
  exact {
    proper := by
      intro j
      rw [hslot]
      split_ifs
      · exact proper_cleared
      · exact h.proper j
    encrypt_valid := hq ▸ h.encrypt_valid
    decrypt_valid := hp ▸ h.decrypt_valid
    encrypt_eq := hq ▸ h.encrypt_eq
    decrypt_eq := hp ▸ h.decrypt_eq
    writes := by
      apply h.writes.mono _ (List.Subset.refl _)
      intro j k hj
      rw [hslot] at hj ⊢
      split_ifs at hj ⊢
      · exact nomatch hj.1
      · exact ⟨hj, fun _ hS => hS⟩
    reads := by
      apply h.reads.mono _ (List.Subset.refl _)
      intro j k hj
      rw [hslot] at hj ⊢
      split_ifs at hj ⊢
      · exact nomatch hj.1
      · exact ⟨hj, fun _ hS => hS⟩
    used_nodup := h.used_nodup
    accepted_nodup := h.accepted_nodup }

/-- The slot `e'` is `e` with the keys of an epoch entered. -/
structure Entered (n : UInt64) (side : EncryptSide) (keys : DerivedKeys κ) (e e' : Dtls13Epoch κ) :
    Prop where
  isValid : e'.isValid = true
  epochNumber : e'.epochNumber = n
  writeKeys : e'.writeKeys = if side.enc then some keys.write else e.writeKeys
  readKeys : e'.readKeys = if side.dec then some keys.read else e.readKeys
  peer : e'.peer = e.peer
  nextSeqNumber : e'.nextSeqNumber = e.nextSeqNumber
  sided : e'.side ≠ none
  decrypts : e'.decrypts = true → side.dec = true ∨ e.isValid = true ∧ e.decrypts = true

theorem entered {e : Dtls13Epoch κ} (n : UInt64) (side : EncryptSide) (keys : DerivedKeys κ)
    (he : e = .cleared ∨ e.isValid = true ∧ e.epochNumber = n) (hproper : e.Proper) :
    Entered n side keys e ((e.copyKeys side keys).enter n side) := by
  rcases he with rfl | ⟨hvalid, rfl⟩
  · exact ⟨rfl, rfl, rfl, rfl, rfl, rfl, nofun, fun hdec => .inl hdec⟩
  · have hsided := hproper.sided hvalid
    have hvalid' : (e.copyKeys side keys).isValid = true := hvalid
    unfold Dtls13Epoch.enter
    rw [if_neg (by simp [hvalid'])]
    split_ifs with hside
    · refine ⟨hvalid, rfl, rfl, rfl, rfl, rfl, nofun, fun _ => ?_⟩
      -- two sides that differ are for decrypting, one of them at least
      obtain ⟨old, hold⟩ := Option.ne_none_iff_exists'.mp hsided
      have hne : old ≠ side := fun heq => hside (heq ▸ hold)
      rw [Dtls13Epoch.decrypts, hold]
      cases old <;> cases side <;> simp_all [EncryptSide.dec]
    · exact ⟨hvalid, rfl, rfl, rfl, rfl, rfl, hsided, fun hdec => .inr ⟨hvalid, hdec⟩⟩

variable {i : Nat} {n : UInt64} {side : EncryptSide} {keys : DerivedKeys κ}
  {e e' : Dtls13Epoch κ}

theorem Entered.proper (h : Entered n side keys e e') (hproper : e.Proper) (hn : n ≠ 0)
    (he : e = .cleared ∨ e.isValid = true ∧ e.epochNumber = n) : e'.Proper where
  blank hblank := by simp [h.isValid] at hblank
  sided _ := h.sided
  keyed _ _ hdec := by
    rw [h.readKeys]
    split_ifs with hside
    · simp
    · rcases h.decrypts hdec with hside' | ⟨hvalid, hdec'⟩
      · exact absurd hside' hside
      · apply hproper.keyed hvalid _ hdec'
        rcases he with rfl | ⟨-, rfl⟩
        · cases hvalid
        · exact hn
  untouched _ _ hnone := by
    rw [h.readKeys] at hnone
    split_ifs at hnone
    rw [h.peer]
    rcases he with rfl | ⟨hvalid, rfl⟩
    · rfl
    · exact hproper.untouched hvalid hn hnone

/-- An epoch without a key to read with has a window that was never used. -/
theorem hasSeen_empty (hproper : e.Proper) (hn : n ≠ 0)
    (he : e = .cleared ∨ e.isValid = true ∧ e.epochNumber = n) (hnone : e.readKeys = none) :
    e.HasSeen ∅ := by
  have hfresh : e.peer = .fresh := by
    rcases he with rfl | ⟨hvalid, rfl⟩
    · rfl
    · exact hproper.untouched hvalid hn hnone
  rw [Dtls13Epoch.HasSeen, hfresh, Set.image_empty]
  exact PeerWindow.tracks_fresh

/-- Keys are entered into a slot that is empty or has the number already. -/
theorem Sound.enterKeys (h : s.Sound) (hi : i < s.dtls13Epochs.length) (hn : n ≠ 0)
    (hslot : s.slot i = .cleared ∨ (s.slot i).isValid = true ∧ (s.slot i).epochNumber = n)
    (hwrite : side.enc = true → Suits keys.write s.writeGiven (s.slot i).writeKeys)
    (hread : side.dec = true → Suits keys.read s.readGiven (s.slot i).readKeys) :
    (s.enterKeys n side keys i).Sound := by
  have hmod (j : Nat) : (s.enterKeys n side keys i).slot j =
      if j = i then ((s.slot i).copyKeys side keys).enter n side else s.slot j :=
    slot_modifySlot _ hi j
  have hnew := entered n side keys hslot (h.proper i)
  generalize ((s.slot i).copyKeys side keys).enter n side = e' at hmod hnew
  have hvalid (j : Nat) (hj : (s.slot j).isValid = true) :
      ((s.enterKeys n side keys i).slot j).isValid = true := by
    rw [hmod]
    split_ifs
    · exact hnew.isValid
    · exact hj
  have hused (hj : (s.slot i).isValid = true) : (s.slot i).epochNumber ≠ 0 := by
    rcases hslot with hclear | ⟨-, rfl⟩
    · rw [hclear] at hj
      cases hj
    · exact hn
  have hkeyed (hkey : (s.slot i).writeKeys ≠ none ∨ (s.slot i).readKeys ≠ none) :
      (s.slot i).isValid = true := by
    rcases hslot with hclear | ⟨hvalid, -⟩
    · simp [hclear, Dtls13Epoch.cleared] at hkey
    · exact hvalid
  have hwriteKeys : e'.writeKeys = (s.slot i).writeKeys ∨
      side.enc = true ∧ keys.write ∉ s.writeGiven ∧ (s.slot i).writeKeys = none := by
    rw [hnew.writeKeys]
    split_ifs with hside
    · exact (hwrite hside).imp (fun hold => hold.symm) fun hfresh => ⟨hside, hfresh⟩
    · exact .inl rfl
  have hreadKeys : e'.readKeys = (s.slot i).readKeys ∨
      side.dec = true ∧ keys.read ∉ s.readGiven ∧ (s.slot i).readKeys = none := by
    rw [hnew.readKeys]
    split_ifs with hside
    · exact (hread hside).imp (fun hold => hold.symm) fun hfresh => ⟨hside, hfresh⟩
    · exact .inl rfl
  exact {
    proper := by
      intro j
      rw [hmod]
      split_ifs
      · exact hnew.proper (h.proper i) hn hslot
      · exact h.proper j
    encrypt_valid := hvalid _ h.encrypt_valid
    decrypt_valid := hvalid _ h.decrypt_valid
    encrypt_eq := by
      change ((s.enterKeys n side keys i).slot s.dtls13EncryptEpoch).epochNumber ≠ 0 →
        s.encrypt = none ∨
          s.encrypt = ((s.enterKeys n side keys i).slot s.dtls13EncryptEpoch).writeKeys
      rw [hmod]
      split_ifs with hq
      · intro _
        have hvalid := h.encrypt_valid
        have hold := h.encrypt_eq
        rw [hq] at hvalid hold
        rcases hold (hused hvalid) with hnone | heq
        · exact .inl hnone
        · rcases hwriteKeys with hsame | ⟨-, -, hnone⟩
          · exact .inr (heq.trans hsame.symm)
          · exact .inl (heq.trans hnone)
      · exact h.encrypt_eq
    decrypt_eq := by
      change ((s.enterKeys n side keys i).slot s.dtls13DecryptEpoch).epochNumber ≠ 0 →
        s.decrypt = ((s.enterKeys n side keys i).slot s.dtls13DecryptEpoch).readKeys ∧
          s.decrypt ≠ none
      rw [hmod]
      split_ifs with hp
      · intro _
        have hvalid := h.decrypt_valid
        have hold := h.decrypt_eq
        rw [hp] at hvalid hold
        obtain ⟨heq, hsome⟩ := hold (hused hvalid)
        rcases hreadKeys with hsame | ⟨-, -, hnone⟩
        · exact ⟨heq.trans hsame.symm, hsome⟩
        · exact absurd (heq.trans hnone) hsome
      · exact h.decrypt_eq
    writes := by
      rcases hwriteKeys with hsame | ⟨hside, hfresh, -⟩
      · apply h.writes.mono
        · intro j k hj
          rw [hmod] at hj ⊢
          split_ifs at hj ⊢ with hji
          · subst hji
            obtain ⟨-, -, hk⟩ := hj
            rw [hsame] at hk
            have hvalid := hkeyed (.inl (by simp [hk]))
            refine ⟨⟨hvalid, hused hvalid, hk⟩, fun S hS m hm => ?_⟩
            rw [hnew.nextSeqNumber]
            exact hS m hm
          · exact ⟨hj, fun _ hS => hS⟩
        · unfold RecordLayer.enterKeys
          split_ifs <;> simp
      · have hgiven : (s.enterKeys n side keys i).writeGiven = keys.write :: s.writeGiven :=
          if_pos hside
        rw [hgiven]
        apply h.writes.give hfresh (i := i) fun _ => False.elim
        intro j k hj
        rw [hmod] at hj ⊢
        split_ifs at hj ⊢ with hji
        · have hk := hj.2.2
          rw [hnew.writeKeys, if_pos hside] at hk
          exact .inl ⟨hji, (Option.some.inj hk).symm⟩
        · exact .inr ⟨hji, hj, fun _ hS => hS⟩
    reads := by
      rcases hreadKeys with hsame | ⟨hside, hfresh, hnone⟩
      · apply h.reads.mono
        · intro j k hj
          rw [hmod] at hj ⊢
          split_ifs at hj ⊢ with hji
          · subst hji
            obtain ⟨-, -, hk⟩ := hj
            rw [hsame] at hk
            have hvalid := hkeyed (.inr (by simp [hk]))
            refine ⟨⟨hvalid, hused hvalid, hk⟩, fun S hS => ?_⟩
            rw [Dtls13Epoch.HasSeen, hnew.peer]
            exact hS
          · exact ⟨hj, fun _ hS => hS⟩
        · unfold RecordLayer.enterKeys
          split_ifs <;> simp
      · have hgiven : (s.enterKeys n side keys i).readGiven = keys.read :: s.readGiven :=
          if_pos hside
        rw [hgiven]
        apply h.reads.give hfresh (i := i)
        · rw [hmod, if_pos rfl, Dtls13Epoch.HasSeen, hnew.peer]
          exact hasSeen_empty (h.proper i) hn hslot hnone
        · intro j k hj
          rw [hmod] at hj ⊢
          split_ifs at hj ⊢ with hji
          · have hk := hj.2.2
            rw [hnew.readKeys, if_pos hside] at hk
            exact .inl ⟨hji, (Option.some.inj hk).symm⟩
          · exact .inr ⟨hji, hj, fun _ hS => hS⟩
    used_nodup := h.used_nodup
    accepted_nodup := h.accepted_nodup }

theorem Sound.enterEpoch (h : s.Sound) (hi : i < s.dtls13Epochs.length) (hn : n ≠ 0)
    (hslot : s.slot i = .cleared ∨ (s.slot i).isValid = true ∧ (s.slot i).epochNumber = n)
    (hwrite : side.enc = true → Suits keys.write s.writeGiven (s.slot i).writeKeys)
    (hread : side.dec = true → Suits keys.read s.readGiven (s.slot i).readKeys) :
    (s.enterEpoch n side keys i).Sound := by
  have hkeys := h.enterKeys (n := n) hi hn hslot hwrite hread
  unfold RecordLayer.enterEpoch
  dsimp only
  split
  · exact hkeys.setOlderEpochSide _
  · exact hkeys

theorem Sound.newEpoch (h : s.Sound) (hallowed : s.Allowed (.newEpoch n side keys)) :
    (s.newEpoch n side keys).2.Sound := by
  obtain ⟨hn, hwrite, hread, hroom⟩ := hallowed
  unfold RecordLayer.newEpoch
  cases hget : s.getEpoch n with
  | some i =>
    obtain ⟨hnumber, hvalid⟩ := getEpoch_eq_some hget
    have hslot : s.epochOf n = s.slot i := by rw [epochOf, hget]; rfl
    rw [hslot] at hwrite hread
    exact h.enterEpoch (lt_length_of_isValid hvalid) hn (.inr ⟨hvalid, hnumber⟩) hwrite hread
  | none =>
    cases hfree : s.newEpochSlot with
    | none => exact h
    | some i =>
      obtain ⟨hi, -⟩ := newEpochSlot_eq_some hfree
      obtain ⟨henc, hdec⟩ := hroom hget
      rw [hfree] at henc hdec
      obtain ⟨hclear, hslot⟩ := h.clear hi (fun heq => henc (heq ▸ rfl)) fun heq => hdec (heq ▸ rfl)
      have hempty : s.epochOf n = .cleared := by rw [epochOf, hget]; rfl
      rw [hempty] at hwrite hread
      apply hclear.enterEpoch _ hn (.inl hslot)
      · rw [hslot]
        exact hwrite
      · rw [hslot]
        exact hread
      · rw [modifySlot, List.length_modify]
        exact hi

/-! ### Sealing -/

theorem toNat_succ {n : UInt64} (h : n ≠ 0xffffffffffffffff) : (n + 1).toNat = n.toNat + 1 := by
  have hone : (1 : UInt64).toNat = 1 := rfl
  have hne : n.toNat ≠ 18446744073709551615 := fun heq => h (UInt64.toNat_inj.mp heq)
  have := n.toNat_lt
  rw [UInt64.toNat_add, hone]
  omega

/-- Slot `i` with other counters. -/
def counted (s : RecordLayer κ) (i : Nat) (next : UInt64) (peer : PeerWindow) (j : Nat) :
    Dtls13Epoch κ :=
  if j = i then { s.slot i with nextSeqNumber := next, peer := peer } else s.slot j

/-- When only the counters of a slot change, and the histories, it is left to see that the
counters are right for the histories. -/
theorem Sound.count (h : s.Sound) (hi : (s.slot i).isValid = true) (next : UInt64)
    {peer : PeerWindow} {f : Dtls13Epoch κ → Dtls13Epoch κ} {used accepted : List (κ × UInt64)}
    (hf : f (s.slot i) = { s.slot i with nextSeqNumber := next, peer := peer })
    (huntouched : (s.slot i).epochNumber ≠ 0 → (s.slot i).readKeys = none →
      peer = (s.slot i).peer)
    (hwrites : KeyUse (fun j => (s.slot j).Writes) (fun j => (s.counted i next peer j).HasSent)
      used s.writeGiven)
    (hreads : KeyUse (fun j => (s.slot j).Reads) (fun j => (s.counted i next peer j).HasSeen)
      accepted s.readGiven)
    (hused : used.Nodup) (haccepted : accepted.Nodup) :
    ({ s.modifySlot i f with used := used, accepted := accepted } : RecordLayer κ).Sound := by
  have hslot (j : Nat) : (s.modifySlot i f).slot j = s.counted i next peer j := by
    rw [slot_modifySlot f (lt_length_of_isValid hi), counted, hf]
  have hsame (j : Nat) : ∃ next' peer', s.counted i next peer j =
      { s.slot j with nextSeqNumber := next', peer := peer' } := by
    unfold counted
    split_ifs with hj
    · exact hj ▸ ⟨_, _, rfl⟩
    · exact ⟨_, _, rfl⟩
  obtain ⟨_, _, hp⟩ := hsame s.dtls13DecryptEpoch
  obtain ⟨_, _, hq⟩ := hsame s.dtls13EncryptEpoch
  exact {
    proper := by
      intro j
      change ((s.modifySlot i f).slot j).Proper
      rw [hslot, counted]
      split_ifs with hj
      · refine ⟨fun hblank => by simp [hi] at hblank, (h.proper i).sided, (h.proper i).keyed,
          fun _ hn hnone => ?_⟩
        exact (huntouched hn hnone).trans ((h.proper i).untouched hi hn hnone)
      · exact h.proper j
    encrypt_valid := by
      change ((s.modifySlot i f).slot s.dtls13EncryptEpoch).isValid = true
      rw [hslot, hq]
      exact h.encrypt_valid
    decrypt_valid := by
      change ((s.modifySlot i f).slot s.dtls13DecryptEpoch).isValid = true
      rw [hslot, hp]
      exact h.decrypt_valid
    encrypt_eq := by
      change ((s.modifySlot i f).slot s.dtls13EncryptEpoch).epochNumber ≠ 0 →
        s.encrypt = none ∨ s.encrypt = ((s.modifySlot i f).slot s.dtls13EncryptEpoch).writeKeys
      rw [hslot, hq]
      exact h.encrypt_eq
    decrypt_eq := by
      change ((s.modifySlot i f).slot s.dtls13DecryptEpoch).epochNumber ≠ 0 →
        s.decrypt = ((s.modifySlot i f).slot s.dtls13DecryptEpoch).readKeys ∧ s.decrypt ≠ none
      rw [hslot, hp]
      exact h.decrypt_eq
    writes := by
      apply hwrites.mono _ (List.Subset.refl _)
      intro j k hj
      change ((s.modifySlot i f).slot j).Writes k at hj
      change (s.slot j).Writes k ∧ ∀ S, (s.counted i next peer j).HasSent S →
        ((s.modifySlot i f).slot j).HasSent S
      rw [hslot] at hj ⊢
      obtain ⟨_, _, hj'⟩ := hsame j
      rw [hj'] at hj ⊢
      exact ⟨hj, fun _ hS => hS⟩
    reads := by
      apply hreads.mono _ (List.Subset.refl _)
      intro j k hj
      change ((s.modifySlot i f).slot j).Reads k at hj
      change (s.slot j).Reads k ∧ ∀ S, (s.counted i next peer j).HasSeen S →
        ((s.modifySlot i f).slot j).HasSeen S
      rw [hslot] at hj ⊢
      obtain ⟨_, _, hj'⟩ := hsame j
      rw [hj'] at hj ⊢
      exact ⟨hj, fun _ hS => hS⟩
    used_nodup := hused
    accepted_nodup := haccepted }

/-- The counters that are not for the history in question stay as they are. -/
theorem counted_hasSeen {peer : PeerWindow} (hpeer : peer = (s.slot i).peer) (next : UInt64) (j : Nat) :
    (s.counted i next peer j).HasSeen = (s.slot j).HasSeen := by
  unfold counted
  split_ifs with hj
  · subst hj hpeer
    rfl
  · rfl

theorem counted_hasSent {next : UInt64} (hnext : next = (s.slot i).nextSeqNumber) (peer : PeerWindow)
    (j : Nat) : (s.counted i next peer j).HasSent = (s.slot j).HasSent := by
  unfold counted
  split_ifs with hj
  · subst hj hnext
    rfl
  · rfl

theorem Sound.build (h : s.Sound) {outSz : Nat} {type : UInt8} {input : List UInt8}
    (hallowed : s.Allowed (.build outSz type input)) :
    (s.buildTls13Message c outSz type input).2.Sound := by
  obtain ⟨hzero, htop⟩ := hallowed
  have hnext := toNat_succ htop
  unfold buildTls13Message
  split_ifs
  · exact h
  have hreads : KeyUse (fun j => (s.slot j).Reads) (fun j => (s.counted s.dtls13EncryptEpoch
      ((s.slot s.dtls13EncryptEpoch).nextSeqNumber + 1) (s.slot s.dtls13EncryptEpoch).peer j).HasSeen)
      s.accepted s.readGiven := by
    simpa only [counted_hasSeen rfl] using h.reads
  have hlt : (s.slot s.dtls13EncryptEpoch).nextSeqNumber <
      (s.slot s.dtls13EncryptEpoch).nextSeqNumber + 1 := by
    rw [UInt64.lt_iff_toNat_lt, hnext]
    omega
  have hmore (j : Nat) (S : Set UInt64) (hS : (s.slot j).HasSent S) :
      (s.counted s.dtls13EncryptEpoch ((s.slot s.dtls13EncryptEpoch).nextSeqNumber + 1)
        (s.slot s.dtls13EncryptEpoch).peer j).HasSent S := by
    unfold counted
    split_ifs with hj
    · subst hj
      exact fun n hn => UInt64.lt_trans (hS n hn) hlt
    · exact hS
  cases hkey : s.encrypt with
  | none =>
    apply h.count h.encrypt_valid _ rfl (fun _ _ => rfl) _ hreads h.used_nodup h.accepted_nodup
    exact h.writes.mono (fun j k hj => ⟨hj, hmore j⟩) (List.Subset.refl _)
  | some k =>
    have hwrites : (s.slot s.dtls13EncryptEpoch).Writes k := by
      refine ⟨h.encrypt_valid, hzero, ?_⟩
      rcases h.encrypt_eq hzero with hnone | heq
      · rw [hkey] at hnone
        cases hnone
      · rw [← heq, hkey]
    apply h.count h.encrypt_valid _ rfl (fun _ _ => rfl) _ hreads _ h.accepted_nodup
    · apply h.writes.use hwrites
      · intro hS n hn
        rw [counted, if_pos rfl]
        rcases hn with rfl | hn
        · exact hlt
        · exact UInt64.lt_trans (hS n hn) hlt
      · exact fun j _ => hmore j
      · exact fun _ _ hj => hj
    · apply List.nodup_cons.mpr ⟨fun hmem => ?_, h.used_nodup⟩
      exact UInt64.lt_irrefl _ (h.writes.knows hwrites _ hmem)

/-! ### Accepting -/

theorem Sound.selectEpoch (h : s.Sound) (epoch : UInt64) : (s.selectEpoch epoch).2.Sound := by
  unfold RecordLayer.selectEpoch
  split_ifs
  · exact h
  · exact h.setEpochKeys epoch .decryptSideOnly

/-- The epoch that was selected decrypts. -/
theorem selectEpoch_eq {r : RecordLayer κ} {epoch : UInt64}
    (hselect : s.selectEpoch epoch = (0, r)) :
    (r.slot r.dtls13DecryptEpoch).epochNumber = epoch ∧ r.dtls13Epochs = s.dtls13Epochs ∧
      r.accepted = s.accepted ∧ r.dtlsStateful = s.dtlsStateful ∧
        r.serverEnd = s.serverEnd := by
  unfold RecordLayer.selectEpoch at hselect
  split_ifs at hselect with hsame
  · obtain rfl := (Prod.mk.inj hselect).2
    exact ⟨hsame, rfl, rfl, rfl, rfl⟩
  · unfold RecordLayer.setEpochKeys at hselect
    cases hget : s.getEpoch epoch with
    | none =>
      rw [hget] at hselect
      exact nomatch (Prod.mk.inj hselect).1
    | some i =>
      obtain ⟨rfl, -⟩ := getEpoch_eq_some hget
      have henc : EncryptSide.decryptSideOnly.enc = false := rfl
      have hdec : EncryptSide.decryptSideOnly.dec = true := rfl
      simp only [hget, henc, hdec, if_true, Bool.false_eq_true, if_false] at hselect
      split_ifs at hselect with hside hzero
      · exact nomatch (Prod.mk.inj hselect).1
      · obtain rfl := (Prod.mk.inj hselect).2
        exact ⟨rfl, rfl, rfl, rfl, rfl⟩
      · obtain rfl := (Prod.mk.inj hselect).2
        exact ⟨rfl, rfl, rfl, rfl, rfl⟩

/-- The number of a record is far enough from the last one for the window to be right. -/
def InReach (s : RecordLayer κ) (seq : UInt64) : Prop :=
  seq.toNat + 1 < 18446744073709551616 ∧
    seq.toNat + 1 < (s.slot s.dtls13DecryptEpoch).peer.nextPeerSeqNumber.toNat + 4294967296

/-- The epoch that decrypts has its key, and its window is right for it. -/
theorem Sound.reading (h : s.Sound) (hzero : (s.slot s.dtls13DecryptEpoch).epochNumber ≠ 0) :
    ∃ k, s.decrypt = some k ∧ (s.slot s.dtls13DecryptEpoch).Reads k ∧
      (s.slot s.dtls13DecryptEpoch).peer.Tracks (UInt64.toNat '' usedWith s.accepted k) := by
  obtain ⟨heq, hsome⟩ := h.decrypt_eq hzero
  obtain ⟨k, hk⟩ := Option.ne_none_iff_exists'.mp hsome
  have hreads : (s.slot s.dtls13DecryptEpoch).Reads k := ⟨h.decrypt_valid, hzero, heq ▸ hk⟩
  exact ⟨k, hk, hreads, h.reads.knows hreads⟩

theorem Sound.processOneRecord (h : s.Sound) {epoch seq : UInt64} {type : UInt8}
    {data : List UInt8} (hepoch : (s.slot s.dtls13DecryptEpoch).epochNumber = epoch)
    (hzero : epoch ≠ 0) (hreach : s.InReach seq) (hstateful : s.dtlsStateful = true) :
    (s.processOneRecord epoch seq type data).2.Sound := by
  obtain ⟨k, hk, hreads, htracks⟩ := h.reading (hepoch ▸ hzero)
  by_cases hcheck : (s.slot s.dtls13DecryptEpoch).peer.checkWindow seq = true
  case neg =>
    unfold RecordLayer.processOneRecord
    rw [if_pos (by simpa using hcheck)]
    exact h
  obtain ⟨hret, htracks'⟩ := htracks.updateWindow hcheck hreach.1 hreach.2
  have haccept : (s.modifySlot s.dtls13DecryptEpoch fun e =>
      { e with peer := ((s.slot s.dtls13DecryptEpoch).peer.updateWindow seq).2 }).accept epoch seq =
      { s.modifySlot s.dtls13DecryptEpoch fun e =>
          { e with peer := ((s.slot s.dtls13DecryptEpoch).peer.updateWindow seq).2 } with
        used := s.used
        accepted := (k, seq) :: s.accepted } := by
    simp [accept, modifySlot, hk, hzero]
  rw [processOneRecord_eq hepoch hstateful hcheck hret, haccept]
  apply h.count h.decrypt_valid (s.slot s.dtls13DecryptEpoch).nextSeqNumber rfl
  · intro _ hnone
    rw [hreads.2.2] at hnone
    cases hnone
  · simpa only [counted_hasSent rfl] using h.writes
  · apply h.reads.use hreads
    · intro _
      rw [counted, if_pos rfl, Dtls13Epoch.HasSeen, Set.image_insert_eq]
      exact htracks'
    · intro j hj S hS
      rwa [counted, if_neg hj]
    · exact fun _ _ hj => hj
  · exact h.used_nodup
  · apply List.nodup_cons.mpr ⟨fun hmem => ?_, h.accepted_nodup⟩
    apply htracks.exact'.toCovers.not_mem (PeerWindow.checkWindow_iff.mp hcheck)
    exact ⟨seq, hmem, rfl⟩

/-- The window of epoch 0 is for no key. -/
theorem Sound.processOneRecord_zero (h : s.Sound) {seq : UInt64} {type : UInt8}
    {data : List UInt8} : (s.processOneRecord 0 seq type data).2.Sound := by
  have hcount (i : Nat) (peer : PeerWindow) (hi : (s.slot i).isValid = true)
      (hzero : (s.slot i).epochNumber = 0) :
      (s.modifySlot i fun e => { e with peer := peer }).Sound := by
    change ({ s.modifySlot i fun e => { e with peer := peer } with
      used := s.used, accepted := s.accepted } : RecordLayer κ).Sound
    apply h.count hi (s.slot i).nextSeqNumber rfl
    · exact fun hne => absurd hzero hne
    · simpa only [counted_hasSent rfl] using h.writes
    · apply h.reads.mono _ (List.Subset.refl _)
      intro j k hj
      refine ⟨hj, fun S hS => ?_⟩
      have hji : j ≠ i := fun heq => hj.2.1 (heq ▸ hzero)
      rwa [counted, if_neg hji]
    · exact h.used_nodup
    · exact h.accepted_nodup
  have hupdate : (s.updateWindow 0 seq).2.Sound := by
    unfold RecordLayer.updateWindow
    split_ifs with hzero
    · exact hcount _ _ h.decrypt_valid hzero
    · cases hget : s.getEpoch 0 with
      | none => exact h
      | some i =>
        obtain ⟨hi, hvalid⟩ := getEpoch_eq_some hget
        exact hcount i _ hvalid hi
  unfold RecordLayer.processOneRecord
  simp only [accept_zero]
  split_ifs
  · exact h
  · exact h
  · exact hupdate
  · exact hupdate

/-- A number less than a turn of the low bits beyond the next one is in reach. -/
theorem inReach_of_lt {seq : UInt64}
    (hfew : ∀ e ∈ s.dtls13Epochs, e.peer.nextPeerSeqNumber.toNat + 65536 < 18446744073709551616)
    (hvalid : (s.slot s.dtls13DecryptEpoch).isValid = true)
    (hlt : seq.toNat < (s.slot s.dtls13DecryptEpoch).peer.nextPeerSeqNumber.toNat + 65536) :
    s.InReach seq := by
  have hlength := lt_length_of_isValid hvalid
  have hmem : s.slot s.dtls13DecryptEpoch ∈ s.dtls13Epochs := by
    unfold slot
    rw [List.getD_eq_getElem?_getD, List.getElem?_eq_getElem hlength, Option.getD_some]
    exact List.getElem_mem hlength
  have hfew' := hfew _ hmem
  unfold InReach
  omega

/-- What is known of a record whose header was read. -/
theorem readRecordHeader_eq {input : List UInt8} {epoch : UInt64} {cur : CurRecord}
    (hcur : s.readRecordHeader c input epoch = .ok cur) :
    cur.epoch = epoch ∧ ∃ info, cur.seq = reconstructSeqNumber
      (s.slot s.dtls13DecryptEpoch).peer.nextPeerSeqNumber info := by
  unfold readRecordHeader at hcur
  split_ifs at hcur
  cases hparse : parseUnifiedRecordLayer (c.rnMask s.decrypt) input with
  | error ret =>
    rw [hparse] at hcur
    cases hcur
  | ok parsed =>
    rw [hparse] at hcur
    obtain rfl := Except.ok.inj hcur
    exact ⟨rfl, _, rfl⟩

/-- After the header of a record was read its epoch decrypts, and its number is in reach. -/
theorem Sound.getDtls13RecordHeader (h : s.Sound) {input : List UInt8}
    (hallowed : s.Allowed (.recvProtected input)) :
    (s.getDtls13RecordHeader c input).2.Sound ∧
      ∀ cur, (s.getDtls13RecordHeader c input).1 = .ok cur → cur.epoch ≠ 0 ∧
        ((s.getDtls13RecordHeader c input).2.slot
          (s.getDtls13RecordHeader c input).2.dtls13DecryptEpoch).epochNumber = cur.epoch ∧
        (s.getDtls13RecordHeader c input).2.InReach cur.seq ∧
        ((s.getDtls13RecordHeader c input).2.serverEnd = false →
          (s.getDtls13RecordHeader c input).2.dtlsStateful = true) := by
  unfold RecordLayer.getDtls13RecordHeader
  by_cases hshort : input.length < 2
  · rw [if_pos hshort]
    exact ⟨h, nofun⟩
  rw [if_neg hshort]
  cases s.reconstructEpochNumber (input.getD 0 0 &&& eeMask) with
  | error ret => exact ⟨h, nofun⟩
  | ok epoch =>
    dsimp only
    by_cases hzero : epoch = 0
    · rw [if_pos hzero]
      exact ⟨h, nofun⟩
    rw [if_neg hzero]
    have hselect := h.selectEpoch epoch
    rcases hs : s.selectEpoch epoch with ⟨ret, r⟩
    rw [hs] at hselect
    dsimp only
    by_cases hret : ret ≠ 0
    · rw [if_pos hret]
      exact ⟨hselect, nofun⟩
    rw [if_neg hret]
    refine ⟨hselect, fun cur hcur => ?_⟩
    obtain ⟨hnumber, hepochs, -, hstateful, hserver⟩ := selectEpoch_eq (not_not.mp hret ▸ hs)
    obtain ⟨rfl, info, hseq⟩ := readRecordHeader_eq hcur
    refine ⟨hzero, hnumber, ?_, hstateful ▸ hserver ▸ hallowed.1⟩
    rw [hseq]
    exact inReach_of_lt (hepochs ▸ hallowed.2) hselect.decrypt_valid
      (reconstructSeqNumber_lt _ info)

theorem Sound.recvProtected (h : s.Sound) {input : List UInt8}
    (hallowed : s.Allowed (.recvProtected input)) :
    (s.recvProtected c input).2.2.Sound := by
  obtain ⟨hsound, hcur⟩ := h.getDtls13RecordHeader hallowed (c := c)
  unfold RecordLayer.recvProtected
  rcases hheader : s.getDtls13RecordHeader c input with ⟨header, r⟩
  rw [hheader] at hsound hcur
  dsimp only at hsound hcur ⊢
  cases header with
  | error ret => exact hsound
  | ok cur =>
    obtain ⟨hzero, hnumber, hreach, hside⟩ := hcur cur rfl
    dsimp only
    by_cases hdrop : r.dtlsShouldDrop true cur.epoch applicationDataType = true
    · rw [if_pos hdrop]
      exact hsound
    rw [if_neg hdrop]
    cases r.deprotect c cur (input.drop cur.header.length) with
    | error outcome => exact hsound
    | ok message =>
      exact hsound.processOneRecord hnumber hzero hreach
        (stateful_of_not_dtlsShouldDrop hside (Bool.eq_false_iff.mpr hdrop))

theorem Sound.step (h : s.Sound) {ev : RecordEvent κ} (hallowed : s.Allowed ev) :
    (step c s ev).Sound := by
  cases ev with
  | newEpoch n side keys => exact h.newEpoch hallowed
  | setEpochKeys n side => exact h.setEpochKeys n side
  | setEpochs own peer => exact { h with }
  | setOptions done retain stateful => exact { h with }
  | build outSz type input => exact h.build hallowed
  | recvProtected input => exact h.recvProtected hallowed
  | recvPlaintext seq type data =>
    change (s.recvPlaintext seq type data).2.Sound
    unfold recvPlaintext
    dsimp only
    split_ifs
    · exact h.selectEpoch 0
    · exact (h.selectEpoch 0).processOneRecord_zero

theorem sound_run (c : RecordCipher κ) (serverEnd : Bool) (evs : List (RecordEvent κ))
    (h : Meets (RecordLayer.step c) Allowed (init serverEnd) evs) :
    (run (RecordLayer.step c) (init serverEnd) evs).Sound :=
  Meets.invariant (fun _ _ hs hallowed => hs.step hallowed) h (sound_init serverEnd)

/-- No number is used twice to seal a record with a key. -/
theorem used_nodup (c : RecordCipher κ) (serverEnd : Bool) (evs : List (RecordEvent κ))
    (h : Meets (RecordLayer.step c) Allowed (init serverEnd) evs) :
    (run (RecordLayer.step c) (init serverEnd) evs).used.Nodup :=
  (sound_run c serverEnd evs h).used_nodup

/-- No record that goes on to be handled has a number that one before it had with the same key,
whatever the records that come. -/
theorem accepted_nodup (c : RecordCipher κ) (serverEnd : Bool) (evs : List (RecordEvent κ))
    (h : Meets (RecordLayer.step c) Allowed (init serverEnd) evs) :
    (run (RecordLayer.step c) (init serverEnd) evs).accepted.Nodup :=
  (sound_run c serverEnd evs h).accepted_nodup

/-- A cipher whose tag tells keys and numbers apart. -/
def sampleCipher : RecordCipher UInt8 where
  aeadMacSize := 16
  aeadMacSize_le := by decide
  encryptTls13 k seq _ plain := plain ++ List.replicate 16 (k.getD 0 + seq.toUInt8)
  decryptTls13 k seq _ bytes :=
    if bytes.drop (bytes.length - 16) = List.replicate 16 (k.getD 0 + seq.toUInt8) then
      some (bytes.take (bytes.length - 16)) else none
  rnMask _ _ := .ok [0x5a, 0xa5]

/-- Keys for epoch 2, and two records. -/
def sampleRun (write read : UInt8) : List (RecordEvent UInt8) :=
  [.newEpoch 2 .encryptAndDecryptSide ⟨write, read⟩, .setEpochKeys 2 .encryptAndDecryptSide,
    .setEpochs 2 2, .setOptions false false true, .build 100 23 [7], .build 100 23 [8]]

theorem used_nodup_sample :
    (run (RecordLayer.step sampleCipher) (init false) (sampleRun 1 2)).used.Nodup :=
  used_nodup sampleCipher false (sampleRun 1 2) (by decide)

/-- The record with number 0 and key 4, of an epoch whose number ends in the bits 0. -/
def sampleRecord : List UInt8 :=
  [0x2c, 0x5a, 0xa5, 0, 18, 7, 23] ++ List.replicate 16 4

/-- The decrypting epoch is 4, and the peer has gone on to epoch 5 and this side to 7. -/
def lateRun : List (RecordEvent UInt8) :=
  [.setOptions false false true, .newEpoch 4 .encryptAndDecryptSide ⟨14, 4⟩,
    .newEpoch 5 .decryptSideOnly ⟨15, 5⟩, .newEpoch 7 .encryptSideOnly ⟨17, 0⟩, .setEpochs 7 5,
    .recvProtected sampleRecord]

theorem accepted_nodup_sample :
    (run (RecordLayer.step sampleCipher) (init false)
      (lateRun ++ [.recvProtected sampleRecord])).accepted.Nodup :=
  accepted_nodup sampleCipher false _ (by decide)

/-- When the slot of the epoch that decrypts is taken for a new epoch, the keys of the old one
stay in the cipher, and its records are accepted once more. -/
example :
    (run (RecordLayer.step sampleCipher) (init false) (lateRun ++
      [.newEpoch 8 .encryptSideOnly ⟨18, 0⟩, .recvProtected sampleRecord])).accepted =
      [(4, 0), (4, 0)] := by
  decide

/-! ## The records of the peer -/

end RecordLayer
end LitexDtls.WolfSsl
