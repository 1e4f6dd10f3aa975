import LitexDtls.Library.ReplayWindow
import LitexDtls.Library.WordBits
import LitexDtls.WolfSsl.Errors

/-!
# The replay window of an epoch

`Dtls13CheckWindow` and `Dtls13UpdateWindow`, with the two words of the window and the loop
that shifts them. They do what the abstract window does (`checkWindow_iff`, `view_mark`,
`view_advance`), but for a record that is `2 ^ 32` or more beyond the highest one: the loop has
only the low half of the distance. That marks numbers that have not been seen, and never forgets
one that has, so that the window is `Covers` after any update, and `Exact` after one that is
near enough.
-/
namespace LitexDtls.WolfSsl
open Library

def dtlsWordBits : Nat := 32
def dtlsWindowWords : Nat := 2
def dtlsSeqBits : Nat := dtlsWindowWords * dtlsWordBits

/-- The fields of `Dtls13Epoch` about the records of the peer. -/
structure PeerWindow where
  nextPeerSeqNumber : UInt64
  window : List UInt32
  deriving DecidableEq, Repr

namespace PeerWindow

/-- `Dtls13CheckWindow`. -/
def checkWindow (e : PeerWindow) (seq : UInt64) : Bool :=
  if e.nextPeerSeqNumber ≤ seq then true
  else
    let diff64 := e.nextPeerSeqNumber - seq
    if UInt64.ofNat dtlsSeqBits < diff64 then false
    else
      -- zero based index
      let diff := (diff64.toUInt32 - 1).toNat
      let wordIndex := diff / dtlsWordBits
      let wordOffset := diff % dtlsWordBits
      !(e.window.getD wordIndex 0 &&& 1 <<< UInt32.ofNat wordOffset != 0)

/-- The loop of `_DtlsUpdateWindowGTSeq` from word `i` on, with `n` words to come. -/
def shiftLoop (oldWindow : List UInt32) (idx diff : Nat) : Nat → Nat → UInt32 → List UInt32
  | _, 0, _ => []
  | i, n + 1, temp =>
    if i < idx then 0 :: shiftLoop oldWindow idx diff (i + 1) n temp
    else
      let old := oldWindow.getD (i - idx) 0
      (temp ||| old <<< UInt32.ofNat diff) :: shiftLoop oldWindow idx diff (i + 1) n
        (if 0 < diff then old >>> UInt32.ofNat (dtlsWordBits - diff) else 0)

/-- `_DtlsUpdateWindowGTSeq`. -/
def dtlsUpdateWindowGTSeq (diff : UInt32) (window : List UInt32) : List UInt32 :=
  (if diff = 0 ∨ dtlsSeqBits ≤ diff.toNat then List.replicate dtlsWindowWords 0
    else shiftLoop window (diff.toNat / dtlsWordBits) (diff.toNat % dtlsWordBits) 0
      dtlsWindowWords 0).modify 0 (· ||| 1)

/-- `Dtls13UpdateWindow`, for the epoch of the record. -/
def updateWindow (e : PeerWindow) (seq : UInt64) : Int32 × PeerWindow :=
  if seq < e.nextPeerSeqNumber then
    let diff := (e.nextPeerSeqNumber - seq - 1).toUInt32.toNat
    let wordIndex := diff / dtlsWordBits
    let wordOffset := diff % dtlsWordBits
    if dtlsWindowWords ≤ wordIndex then (badStateE, e)
    else (0, { e with
      window := e.window.modify wordIndex (· ||| 1 <<< UInt32.ofNat wordOffset) })
  else
    let diff64 := seq - e.nextPeerSeqNumber + 1
    (0, ⟨seq + 1, dtlsUpdateWindowGTSeq diff64.toUInt32 e.window⟩)

/-- The window of a new epoch. -/
def fresh : PeerWindow := ⟨0, List.replicate dtlsWindowWords 0⟩

/-! ## The words as one window -/

/-- The window that the words stand for. -/
def view (e : PeerWindow) : ReplayWindow dtlsSeqBits := ⟨e.nextPeerSeqNumber.toNat, bitAt e.window⟩

/-- The carry from the words before word `i`. -/
def carry (oldWindow : List UInt32) (idx diff i : Nat) : UInt32 :=
  if idx < i ∧ 0 < diff then
    oldWindow.getD (i - 1 - idx) 0 >>> UInt32.ofNat (dtlsWordBits - diff)
  else 0

/-- The carry is the high end of the word before, at the low end. -/
theorem wordBit_carry (oldWindow : List UInt32) {idx diff i k : Nat} (hdiff : diff < 32)
    (hk : k < 32) : wordBit (carry oldWindow idx diff i) k =
      (decide (idx < i ∧ k < diff) &&
        wordBit (oldWindow.getD (i - 1 - idx) 0) (dtlsWordBits - diff + k)) := by
  unfold carry
  split_ifs with h
  · rw [wordBit_shiftRight _ (by unfold dtlsWordBits; omega)]
    by_cases hkd : k < diff
    · simp [h.1, hkd]
    · rw [wordBit_of_le _ (by unfold dtlsWordBits; omega)]
      simp [hkd]
  · have hno : ¬ (idx < i ∧ k < diff) := by omega
    simp [hno]

/-- The loop shifts the old words up by `dtlsWordBits * idx + diff`. -/
theorem bitAt_shiftLoop (oldWindow : List UInt32) (idx : Nat) {diff : Nat} (hdiff : diff < 32)
    (i n : Nat) (k : Nat) :
    bitAt (shiftLoop oldWindow idx diff i n (carry oldWindow idx diff i)) k =
      (decide (k < 32 * n) && decide (32 * idx + diff ≤ 32 * i + k) &&
        bitAt oldWindow (32 * i + k - (32 * idx + diff))) := by
  induction n generalizing i k with
  | zero => simp [shiftLoop]
  | succ n ih =>
    unfold shiftLoop
    by_cases hi : i < idx
    · have hcarry : carry oldWindow idx diff i = carry oldWindow idx diff (i + 1) := by
        rw [carry, carry, if_neg (by omega), if_neg (by omega)]
      rw [if_pos hi, hcarry, bitAt_cons, ih]
      split_ifs with hk
      · have hlow : ¬ 32 * idx + diff ≤ 32 * i + k := by omega
        simp [hlow]
      · have hpos : 32 * (i + 1) + (k - 32) = 32 * i + k := by omega
        have hn : k - 32 < 32 * n ↔ k < 32 * (n + 1) := by omega
        simp only [hpos, hn]
    · have hcarry : carry oldWindow idx diff (i + 1) =
          if 0 < diff then
            oldWindow.getD (i - idx) 0 >>> UInt32.ofNat (dtlsWordBits - diff) else 0 := by
        rw [carry, Nat.add_sub_cancel]
        simp only [show idx < i + 1 by omega, true_and]
      rw [if_neg hi]
      dsimp only
      rw [← hcarry, bitAt_cons, ih]
      split_ifs with hk
      · rw [wordBit_or, wordBit_shiftLeft _ hdiff hk, wordBit_carry _ hdiff hk]
        have hn : k < 32 * (n + 1) := by omega
        by_cases hkd : k < diff
        · have hge : ¬ diff ≤ k := by omega
          by_cases hlt : idx < i
          · -- the bit comes from the word before
            have hpos : 32 * i + k - (32 * idx + diff) = 32 * (i - 1 - idx) + (32 - diff + k) := by
              omega
            have hle : 32 * idx + diff ≤ 32 * i + k := by omega
            rw [hpos, bitAt_mul_add _ _ (by omega)]
            simp [hkd, hlt, hge, hn, hle, dtlsWordBits]
          · have hle : ¬ 32 * idx + diff ≤ 32 * i + k := by omega
            simp [hlt, hge, hle]
        · have hge : diff ≤ k := by omega
          have hpos : 32 * i + k - (32 * idx + diff) = 32 * (i - idx) + (k - diff) := by omega
          have hle : 32 * idx + diff ≤ 32 * i + k := by omega
          rw [hpos, bitAt_mul_add _ _ (by omega)]
          simp [hkd, hge, hn, hle]
      · have hpos : 32 * (i + 1) + (k - 32) = 32 * i + k := by omega
        have hn : k - 32 < 32 * n ↔ k < 32 * (n + 1) := by omega
        simp only [hpos, hn]

theorem length_shiftLoop (oldWindow : List UInt32) (idx diff i n : Nat) (temp : UInt32) :
    (shiftLoop oldWindow idx diff i n temp).length = n := by
  fun_induction shiftLoop oldWindow idx diff i n temp <;> simp_all

/-- `_DtlsUpdateWindowGTSeq` shifts by its argument, drops everything when that is 0, and marks
the lowest bit. -/
theorem bitAt_dtlsUpdateWindowGTSeq (diff : UInt32) (window : List UInt32) {k : Nat}
    (hk : k < dtlsSeqBits) :
    bitAt (dtlsUpdateWindowGTSeq diff window) k =
      (decide (k = 0) ||
        (decide (diff ≠ 0 ∧ diff.toNat ≤ k) && bitAt window (k - diff.toNat))) := by
  have hbits : dtlsSeqBits = 64 := rfl
  unfold dtlsUpdateWindowGTSeq
  split_ifs with hclear
  · rw [bitAt_modify_zero_or_one _ (by simp [dtlsWindowWords]), bitAt_replicate_zero]
    have hno : ¬ (diff ≠ 0 ∧ diff.toNat ≤ k) := by
      rintro ⟨hne, hle⟩
      have := hclear.resolve_left hne
      omega
    simp [hno]
  · rw [bitAt_modify_zero_or_one _ (by rw [length_shiftLoop]; decide)]
    have hloop := bitAt_shiftLoop window (diff.toNat / dtlsWordBits)
      (Nat.mod_lt diff.toNat (by decide : 0 < 32)) 0 dtlsWindowWords k
    have hcarry : carry window (diff.toNat / dtlsWordBits) (diff.toNat % 32) 0 = 0 :=
      if_neg (by simp)
    have hsum : 32 * (diff.toNat / dtlsWordBits) + diff.toNat % 32 = diff.toNat :=
      Nat.div_add_mod _ _
    have hlt : k < 32 * dtlsWindowWords := hk
    rw [hcarry, hsum] at hloop
    have hne : diff ≠ 0 := by tauto
    rw [show diff.toNat % dtlsWordBits = diff.toNat % 32 from rfl, hloop]
    simp [hlt, hne]

theorem length_dtlsUpdateWindowGTSeq (diff : UInt32) (window : List UInt32) :
    (dtlsUpdateWindowGTSeq diff window).length = dtlsWindowWords := by
  unfold dtlsUpdateWindowGTSeq
  split_ifs <;> simp [length_shiftLoop]

/-! ## One record -/

variable {e : PeerWindow} {seq : UInt64}

theorem toNat_diff (h : seq < e.nextPeerSeqNumber) :
    (e.nextPeerSeqNumber - seq).toNat = e.nextPeerSeqNumber.toNat - seq.toNat :=
  UInt64.toNat_sub_of_le _ _ (UInt64.le_of_lt h)

theorem toNat_toUInt32_sub_one {d : UInt64} (hpos : 0 < d.toNat) (hlt : d.toNat < 4294967296) :
    (d.toUInt32 - 1).toNat = d.toNat - 1 := by
  have hone : (1 : UInt32).toNat = 1 := rfl
  have hlow : d.toUInt32.toNat = d.toNat := by
    rw [UInt64.toNat_toUInt32]
    omega
  rw [UInt32.toNat_sub_of_le _ _ (by rw [UInt32.le_iff_toNat_le]; omega), hlow, hone]

/-- `Dtls13CheckWindow` lets through what the window admits. -/
theorem checkWindow_iff : e.checkWindow seq = true ↔ e.view.Admits seq.toNat := by
  have hbits : (UInt64.ofNat dtlsSeqBits).toNat = 64 := by decide
  unfold checkWindow ReplayWindow.Admits view
  by_cases hge : e.nextPeerSeqNumber ≤ seq
  · simp [hge, UInt64.le_iff_toNat_le.mp hge]
  have hdiff := toNat_diff (UInt64.not_le.mp hge)
  rw [if_neg hge]
  rw [UInt64.le_iff_toNat_le] at hge
  dsimp only
  by_cases hfar : UInt64.ofNat dtlsSeqBits < e.nextPeerSeqNumber - seq
  · rw [if_pos hfar]
    rw [UInt64.lt_iff_toNat_lt, hdiff, hbits] at hfar
    have : dtlsSeqBits = 64 := rfl
    simp only [Bool.false_eq_true, false_iff]
    omega
  · rw [if_neg hfar]
    rw [UInt64.lt_iff_toNat_lt, hdiff, hbits] at hfar
    have hindex : ((e.nextPeerSeqNumber - seq).toUInt32 - 1).toNat =
        e.nextPeerSeqNumber.toNat - 1 - seq.toNat := by
      rw [toNat_toUInt32_sub_one (by omega) (by omega), hdiff]
      omega
    have hin : e.nextPeerSeqNumber.toNat - seq.toNat ≤ dtlsSeqBits := Nat.le_of_not_lt hfar
    rw [hindex, show dtlsWordBits = 32 from rfl, ← bitAt_eq_mask]
    simp [hge, hin]

/-- A record below `nextPeerSeqNumber` is marked. -/
theorem updateWindow_of_lt (hlt : seq < e.nextPeerSeqNumber)
    (hin : e.nextPeerSeqNumber.toNat - seq.toNat ≤ dtlsSeqBits)
    (hlen : e.window.length = dtlsWindowWords) :
    (e.updateWindow seq).1 = 0 ∧ (e.updateWindow seq).2.window.length = dtlsWindowWords ∧
      (e.updateWindow seq).2.view = e.view.mark seq.toNat := by
  have hbits : dtlsSeqBits = 64 := rfl
  have hnat : seq.toNat < e.nextPeerSeqNumber.toNat := UInt64.lt_iff_toNat_lt.mp hlt
  have hindex : (e.nextPeerSeqNumber - seq - 1).toUInt32.toNat =
      e.nextPeerSeqNumber.toNat - 1 - seq.toNat := by
    have hone : (1 : UInt64).toNat = 1 := rfl
    have hdiff := toNat_diff hlt
    have hle : (1 : UInt64) ≤ e.nextPeerSeqNumber - seq := by
      rw [UInt64.le_iff_toNat_le]
      omega
    rw [UInt64.toNat_toUInt32, UInt64.toNat_sub_of_le _ _ hle, hdiff, hone]
    omega
  have hword : ¬ dtlsWindowWords ≤ (e.nextPeerSeqNumber.toNat - 1 - seq.toNat) / dtlsWordBits := by
    unfold dtlsWindowWords dtlsWordBits
    omega
  have hbit := bitAt_modify_or e.window (d := e.nextPeerSeqNumber.toNat - 1 - seq.toNat)
    (by rw [hlen]; unfold dtlsWindowWords; omega)
  unfold updateWindow
  rw [if_pos hlt]
  dsimp only
  rw [hindex, if_neg hword]
  refine ⟨rfl, ?_, congrArg (ReplayWindow.mk _) (funext hbit)⟩
  rw [List.length_modify, hlen]

/-- A record that is not below `nextPeerSeqNumber` becomes the highest one. -/
theorem updateWindow_of_le (hle : e.nextPeerSeqNumber ≤ seq) :
    e.updateWindow seq = (0, ⟨seq + 1,
      dtlsUpdateWindowGTSeq (seq - e.nextPeerSeqNumber + 1).toUInt32 e.window⟩) :=
  if_neg (UInt64.not_lt.mpr hle)

/-! ## What the window knows -/

/-- The window has two words, and knows of the numbers in `seen` and of no others. -/
structure Tracks (seen : Set Nat) (e : PeerWindow) : Prop where
  length_eq : e.window.length = dtlsWindowWords
  exact' : e.view.Exact seen

variable {seen : Set Nat}

theorem tracks_fresh : Tracks ∅ fresh := ⟨rfl, ReplayWindow.exact_empty _⟩

/-- The distance by which the window is shifted; the loop has its low half. -/
theorem toNat_shift (hle : e.nextPeerSeqNumber ≤ seq) :
    (seq - e.nextPeerSeqNumber + 1).toUInt32.toNat =
      (seq.toNat + 1 - e.nextPeerSeqNumber.toNat) % 4294967296 := by
  have hnat := UInt64.le_iff_toNat_le.mp hle
  have hone : (1 : UInt64).toNat = 1 := rfl
  rw [UInt64.toNat_toUInt32, UInt64.toNat_add, UInt64.toNat_sub_of_le _ _ hle, hone]
  omega

/-- The bits after a shift by less than `2 ^ 32`. -/
theorem bitAt_updateWindow (hle : e.nextPeerSeqNumber ≤ seq) {k : Nat} (hk : k < dtlsSeqBits)
    (hnear : seq.toNat + 1 < e.nextPeerSeqNumber.toNat + 4294967296) :
    bitAt (dtlsUpdateWindowGTSeq (seq - e.nextPeerSeqNumber + 1).toUInt32 e.window) k = true ↔
      k = 0 ∨ seq.toNat + 1 - e.nextPeerSeqNumber.toNat ≤ k ∧
        bitAt e.window (k - (seq.toNat + 1 - e.nextPeerSeqNumber.toNat)) = true := by
  have hnat := UInt64.le_iff_toNat_le.mp hle
  have hshift : (seq - e.nextPeerSeqNumber + 1).toUInt32.toNat =
      seq.toNat + 1 - e.nextPeerSeqNumber.toNat := by
    rw [toNat_shift hle]
    omega
  have hne : (seq - e.nextPeerSeqNumber + 1).toUInt32 ≠ 0 := by
    intro hzero
    rw [hzero, UInt32.toNat_zero] at hshift
    omega
  rw [bitAt_dtlsUpdateWindowGTSeq _ _ hk, hshift]
  simp only [hne, Bool.or_eq_true, Bool.and_eq_true, decide_eq_true_eq, ne_eq, not_false_eq_true,
    true_and]

theorem toNat_add_one (htop : seq.toNat + 1 < 18446744073709551616) :
    (seq + 1).toNat = seq.toNat + 1 := by
  have hone : (1 : UInt64).toNat = 1 := rfl
  rw [UInt64.toNat_add, hone]
  omega

/-- When the new number is near enough, nothing else is marked. -/
theorem Tracks.updateWindow (h : Tracks seen e) (hs : e.checkWindow seq = true)
    (htop : seq.toNat + 1 < 18446744073709551616)
    (hnear : seq.toNat + 1 < e.nextPeerSeqNumber.toNat + 4294967296) :
    (e.updateWindow seq).1 = 0 ∧ Tracks (insert seq.toNat seen) (e.updateWindow seq).2 := by
  by_cases hlt : seq < e.nextPeerSeqNumber
  · have hnat : seq.toNat < e.view.next := UInt64.lt_iff_toNat_lt.mp hlt
    have hin := ((checkWindow_iff.mp hs).resolve_left (Nat.not_le.mpr hnat)).1
    obtain ⟨hret, hlen, hview⟩ := updateWindow_of_lt hlt hin h.length_eq
    exact ⟨hret, hlen, hview ▸ h.exact'.mark hnat⟩
  · have hle := UInt64.not_lt.mp hlt
    rw [updateWindow_of_le hle]
    refine ⟨rfl, length_dtlsUpdateWindowGTSeq .., ?_⟩
    rw [view, toNat_add_one htop]
    exact h.exact'.advance (UInt64.le_iff_toNat_le.mp hle)
      (fun k hk => bitAt_updateWindow hle hk hnear) (by decide)

end PeerWindow
end LitexDtls.WolfSsl
