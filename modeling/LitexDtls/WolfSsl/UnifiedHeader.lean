import LitexDtls.Library.Memory
import LitexDtls.Library.WordBits
import LitexDtls.WolfSsl.Errors

/-!
# The unified header

The header of a protected record as `Dtls13RlAddCiphertextHeader` writes it and
`Dtls13ParseUnifiedRecordLayer` reads it. It has two bits of the epoch and the low bytes of the
sequence number, and these bytes are covered with a mask that is made from the ciphertext.

`Dtls13ReconstructSeqNumber` finds the rest of the sequence number: it is right when the number
is less than half a turn of the low bits away from the next expected one, and it never goes more
than a turn beyond that one.
-/
namespace LitexDtls.WolfSsl
open Library

def dtls13SeqLenBit : UInt8 := 0x8
def dtls13LenBit : UInt8 := 0x4
def dtls13FixedBits : UInt8 := 0x20
def eeMask : UInt8 := 0x3
def dtls13RnMaskSize : Nat := 16
def dtls13UnifiedHeaderSize : Nat := 5
def dtls13MinCiphertext : Nat := 16

/-- `Dtls13UnifiedHdrInfo`. -/
structure UnifiedHdrInfo where
  recordLength : UInt16
  seqLo : UInt8
  seqHi : UInt8
  seqHiPresent : Bool
  epochBits : UInt8
  deriving DecidableEq, Repr

/-- `Dtls13GetRnMask`, from the first bytes of the ciphertext. -/
abbrev RnMask := List UInt8 → Except Int32 (List UInt8)

/-- `xorbuf`. -/
def xorbuf (buf mask : List UInt8) : List UInt8 := buf.mapIdx fun i b => b ^^^ mask.getD i 0

/-- `Dtls13EncryptDecryptRecordNumber`. -/
def encryptDecryptRecordNumber (rnMask : RnMask) (seq ciphertext : List UInt8) :
    Except Int32 (List UInt8) :=
  match rnMask (ciphertext.take dtls13RnMaskSize) with
  | .error ret => .error ret
  | .ok mask => .ok (xorbuf seq mask)

/-- `Dtls13GetEpochBits`. -/
def getEpochBits (epoch : UInt64) : UInt8 := epoch.toUInt8 &&& eeMask

/-- `Dtls13RlAddCiphertextHeader`, for an epoch and its next sequence number. -/
def rlAddCiphertextHeader (epochNumber nextSeqNumber : UInt64) (length : UInt16) : List UInt8 :=
  (dtls13FixedBits ||| getEpochBits epochNumber ||| dtls13SeqLenBit ||| dtls13LenBit) ::
    be16 nextSeqNumber.toUInt16 ++ be16 length

/-- `Dtls13EncryptRecordNumber`, for a whole record. -/
def encryptRecordNumber (rnMask : RnMask) (record : List UInt8) : Except Int32 (List UInt8) :=
  if record.length % 65536 < dtls13UnifiedHeaderSize + dtls13MinCiphertext then .error bufferError
  else
    let flags := record.getD 0 0
    -- the length of the number goes by the bit of the length field
    let seqLength := if flags &&& dtls13LenBit ≠ 0 then 2 else 1
    let hdrLength := 1 + seqLength + (if flags &&& dtls13LenBit ≠ 0 then 2 else 0)
    match encryptDecryptRecordNumber rnMask ((record.drop 1).take seqLength)
        (record.drop hdrLength) with
    | .error ret => .error ret
    | .ok seq => .ok (record.take 1 ++ seq ++ record.drop (1 + seqLength))

/-- `Dtls13GetUnifiedHeaderSize`. -/
def getUnifiedHeaderSize (flags : UInt8) : Nat :=
  2 + (if flags &&& dtls13SeqLenBit ≠ 0 then 1 else 0) +
    (if flags &&& dtls13LenBit ≠ 0 then 2 else 0)

/-- `Dtls13ParseUnifiedRecordLayer`, of the bytes from the header on. The record number is
decrypted in place; the second part of the result is the header with it. -/
def parseUnifiedRecordLayer (rnMask : RnMask) (input : List UInt8) :
    Except Int32 (UnifiedHdrInfo × List UInt8) :=
  let inputSize := input.length % 65536
  if inputSize < 1 then .error badFuncArg
  else
    let flags := input.getD 0 0
    let seqLen := if flags &&& dtls13SeqLenBit ≠ 0 then 2 else 1
    let hasLength := flags &&& dtls13LenBit ≠ 0
    if inputSize < 1 + seqLen then .error bufferError
    else if hasLength ∧ inputSize < 1 + seqLen + 2 then .error bufferError
    else
      let idx := if hasLength then 1 + seqLen + 2 else 1 + seqLen
      let recordLength :=
        if hasLength then word16 (input.drop (1 + seqLen)) else UInt16.ofNat (inputSize - idx)
      if recordLength.toNat < dtls13RnMaskSize then .error lengthError
      else if inputSize < idx + dtls13RnMaskSize then .error bufferError
      else
        match encryptDecryptRecordNumber rnMask ((input.drop 1).take seqLen)
            (input.drop idx) with
        | .error ret => .error ret
        | .ok seqNum =>
          let info := if seqLen = 2 then
              ⟨recordLength, seqNum.getD 1 0, seqNum.getD 0 0, true, flags &&& eeMask⟩
            else ⟨recordLength, seqNum.getD 0 0, 0, false, flags &&& eeMask⟩
          .ok (info, input.take 1 ++ seqNum ++ (input.drop (1 + seqLen)).take (idx - 1 - seqLen))

/-- The last part of `Dtls13ReconstructSeqNumber`: the low bits take the place of those of the
next sequence number expected, and the rest goes up or down when they are far from these. -/
def closestSeq (nextPeerSeqNumber : UInt64) (seqLowBits mask shift : UInt32) : UInt64 :=
  let out32 := nextPeerSeqNumber.toUInt32
  let expectedLowBits := out32 &&& mask
  let out := (nextPeerSeqNumber &&& ~~~0xffffffff) ||| ((out32 &&& ~~~mask) ||| seqLowBits).toUInt64
  if expectedLowBits ≤ seqLowBits then
    if shift / 2 < seqLowBits - expectedLowBits then
      -- a number that would wrap stays as it is
      if out < shift.toUInt64 then out else out - shift.toUInt64
    else out
  else if shift / 2 < expectedLowBits - seqLowBits then
    if out + shift.toUInt64 < shift.toUInt64 then out else out + shift.toUInt64
  else out

/-- `Dtls13ReconstructSeqNumber`. -/
def reconstructSeqNumber (nextPeerSeqNumber : UInt64) (hdrInfo : UnifiedHdrInfo) : UInt64 :=
  if hdrInfo.seqHiPresent then
    closestSeq nextPeerSeqNumber (hdrInfo.seqHi.toUInt32 <<< 8 ||| hdrInfo.seqLo.toUInt32)
      0xffff 0x10000
  else closestSeq nextPeerSeqNumber hdrInfo.seqLo.toUInt32 0xff 0x100

/-! ## The sequence number -/

/-- `closestSeq` in natural numbers, with `m` the turn of the low bits. -/
theorem toNat_closestSeq (next : UInt64) (low mask shift : UInt32) {b : Nat} (hb : b ≤ 16)
    (hmask : mask.toNat = 2 ^ b - 1) (hshift : shift.toNat = 2 ^ b) (hlow : low.toNat < 2 ^ b) :
    ∃ out, out = next.toNat / 2 ^ b * 2 ^ b + low.toNat ∧
    (closestSeq next low mask shift).toNat =
      if next.toNat % 2 ^ b ≤ low.toNat then
        if 2 ^ b / 2 < low.toNat - next.toNat % 2 ^ b then
          if out < 2 ^ b then out else out - 2 ^ b
        else out
      else if 2 ^ b / 2 < next.toNat % 2 ^ b - low.toNat then
        if 18446744073709551616 ≤ out + 2 ^ b then out else out + 2 ^ b
      else out := by
  refine ⟨_, (toNat_setLow next (Nat.le_trans hb (by decide)) hmask hlow), ?_⟩
  have hexp : (next.toUInt32 &&& mask).toNat = next.toNat % 2 ^ b := by
    rw [UInt32.toNat_and, hmask, Nat.and_two_pow_sub_one_eq_mod, UInt64.toNat_toUInt32]
    exact Nat.mod_mod_of_dvd _ (Nat.pow_dvd_pow 2 (Nat.le_trans hb (by decide)))
  have hturn : 2 ^ b ≤ 65536 := Nat.pow_le_pow_right (by decide) hb
  have hhalf : (shift / 2).toNat = 2 ^ b / 2 := by
    rw [UInt32.toNat_div, hshift]
    rfl
  have hshift' : shift.toUInt64.toNat = 2 ^ b := by rw [UInt32.toNat_toUInt64, hshift]
  unfold closestSeq
  dsimp only
  generalize (next &&& ~~~0xffffffff) ||| ((next.toUInt32 &&& ~~~mask) ||| low).toUInt64 = out
  have hsum : (out + shift.toUInt64).toNat = (out.toNat + 2 ^ b) % 18446744073709551616 := by
    rw [UInt64.toNat_add, hshift']
  have hout := out.toNat_lt
  generalize next.toUInt32 &&& mask = expected at hexp ⊢
  by_cases hle : expected ≤ low
  · have hdiff := UInt32.toNat_sub_of_le _ _ hle
    have hle' := hle
    rw [UInt32.le_iff_toNat_le, hexp] at hle'
    rw [if_pos hle, if_pos hle', ← hexp, ← hhalf, ← hdiff]
    simp only [UInt32.lt_iff_toNat_lt, UInt64.lt_iff_toNat_lt, hshift']
    split_ifs with hfar hwrap
    · rfl
    · rw [UInt64.toNat_sub_of_le _ _ (by rw [UInt64.le_iff_toNat_le]; omega), hshift']
    · rfl
  · have hdiff := UInt32.toNat_sub_of_le _ _ (UInt32.le_of_lt (UInt32.not_le.mp hle))
    have hle' := hle
    rw [UInt32.le_iff_toNat_le, hexp] at hle'
    rw [if_neg hle, if_neg hle', ← hexp, ← hhalf, ← hdiff]
    simp only [UInt32.lt_iff_toNat_lt, UInt64.lt_iff_toNat_lt, hshift', hsum]
    split_ifs <;> omega

namespace UnifiedHdrInfo

/-- The low bits of the sequence number that are in the header. -/
def lowBits (info : UnifiedHdrInfo) : Nat :=
  if info.seqHiPresent then 256 * info.seqHi.toNat + info.seqLo.toNat else info.seqLo.toNat

/-- One more than the highest value of the low bits. -/
def turn (info : UnifiedHdrInfo) : Nat := if info.seqHiPresent then 65536 else 256

end UnifiedHdrInfo

theorem toNat_shiftLeft_or (hi lo : UInt8) :
    (hi.toUInt32 <<< 8 ||| lo.toUInt32).toNat = 256 * hi.toNat + lo.toNat := by
  have hhi := hi.toNat_lt
  have hor := Nat.two_pow_add_eq_or_of_lt lo.toNat_lt hi.toNat
  have hshift : (hi.toUInt32 <<< 8).toNat = 2 ^ 8 * hi.toNat := by
    rw [UInt32.toNat_shiftLeft, UInt8.toNat_toUInt32]
    change hi.toNat <<< 8 % 4294967296 = _
    rw [Nat.shiftLeft_eq, Nat.mul_comm]
    exact Nat.mod_eq_of_lt (by omega)
  rw [UInt32.toNat_or, hshift, UInt8.toNat_toUInt32, ← hor]

/-- What `Dtls13ReconstructSeqNumber` computes. -/
theorem toNat_reconstructSeqNumber (next : UInt64) (info : UnifiedHdrInfo) :
    (info.turn = 65536 ∨ info.turn = 256) ∧ info.lowBits < info.turn ∧
    ∃ out, out = next.toNat / info.turn * info.turn + info.lowBits ∧
    (reconstructSeqNumber next info).toNat =
      if next.toNat % info.turn ≤ info.lowBits then
        if info.turn / 2 < info.lowBits - next.toNat % info.turn then
          if out < info.turn then out else out - info.turn
        else out
      else if info.turn / 2 < next.toNat % info.turn - info.lowBits then
        if 18446744073709551616 ≤ out + info.turn then out else out + info.turn
      else out := by
  have hhi := info.seqHi.toNat_lt
  have hlo := info.seqLo.toNat_lt
  unfold UnifiedHdrInfo.turn UnifiedHdrInfo.lowBits reconstructSeqNumber
  by_cases hpresent : info.seqHiPresent = true
  · have hnat := toNat_shiftLeft_or info.seqHi info.seqLo
    have h := toNat_closestSeq next (info.seqHi.toUInt32 <<< 8 ||| info.seqLo.toUInt32) 0xffff
      0x10000 (b := 16) (Nat.le_refl _) rfl rfl (by rw [hnat]; omega)
    rw [hnat] at h
    rw [if_pos hpresent, if_pos hpresent, if_pos hpresent]
    exact ⟨.inl rfl, by omega, h⟩
  · have h := toNat_closestSeq next info.seqLo.toUInt32 0xff 0x100 (b := 8) (by decide) rfl rfl
      (by rw [UInt8.toNat_toUInt32]; omega)
    rw [UInt8.toNat_toUInt32] at h
    rw [if_neg hpresent, if_neg hpresent, if_neg hpresent]
    exact ⟨.inr rfl, by omega, h⟩

/-- The number that is found is less than a turn beyond the next one that is expected. -/
theorem reconstructSeqNumber_lt (next : UInt64) (info : UnifiedHdrInfo) :
    (reconstructSeqNumber next info).toNat < next.toNat + 65536 := by
  obtain ⟨hturn, hlt, out, hout, h⟩ := toNat_reconstructSeqNumber next info
  rw [h]
  generalize info.turn = m at *
  rcases hturn with rfl | rfl <;> split_ifs <;> omega

/-! ## The header of a record that was sent -/

@[simp] theorem length_xorbuf (buf mask : List UInt8) : (xorbuf buf mask).length = buf.length := by
  simp [xorbuf]

variable {rnMask : RnMask} {epochNumber seqNumber : UInt64} {length : UInt16}
  {ciphertext mask : List UInt8}

end LitexDtls.WolfSsl
