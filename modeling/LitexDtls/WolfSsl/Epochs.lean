import Mathlib.Data.List.Basic
import LitexDtls.WolfSsl.Errors
import LitexDtls.WolfSsl.UnifiedHeader
import LitexDtls.WolfSsl.Window

/-!
# The epochs of a session

The table of epochs of a DTLS 1.3 session: `Dtls13NewEpoch` enters the keys of an epoch into it,
in a slot that has to be made free when there is none, and `Dtls13SetEpochKeys` makes an epoch
the one that encrypts or decrypts. The keys are a type of their own: `write` is for the records
that are sent, `read` for those that come.

`used` and `accepted` are histories of the numbers under which records were sealed, and went on
to be handled, with each key, `writeGiven` and `readGiven` of the keys that were derived.
-/
namespace LitexDtls.WolfSsl

/-- `enum encrypt_side`. -/
inductive EncryptSide where
  | encryptSideOnly
  | decryptSideOnly
  | encryptAndDecryptSide
  deriving DecidableEq, Repr

namespace EncryptSide

def enc (side : EncryptSide) : Bool := side = encryptSideOnly || side = encryptAndDecryptSide

def dec (side : EncryptSide) : Bool := side = decryptSideOnly || side = encryptAndDecryptSide

end EncryptSide

/-- The keys that were derived for an epoch. -/
structure DerivedKeys (κ : Type) where
  write : κ
  read : κ
  deriving DecidableEq, Repr

/-- `Dtls13Epoch`. A slot that was never used has no side. -/
structure Dtls13Epoch (κ : Type) where
  epochNumber : UInt64
  nextSeqNumber : UInt64
  peer : PeerWindow
  writeKeys : Option κ
  readKeys : Option κ
  isValid : Bool
  side : Option EncryptSide
  deriving DecidableEq, Repr

variable {κ : Type}

namespace Dtls13Epoch

/-- A slot after `XMEMSET`. -/
def cleared : Dtls13Epoch κ := ⟨0, 0, .fresh, none, none, false, none⟩

/-- `Dtls13EpochCopyKeys`. -/
def copyKeys (side : EncryptSide) (keys : DerivedKeys κ) (e : Dtls13Epoch κ) : Dtls13Epoch κ :=
  { e with
    writeKeys := if side.enc then some keys.write else e.writeKeys
    readKeys := if side.dec then some keys.read else e.readKeys }

/-- The slot as `Dtls13NewEpoch` leaves it, but for the sides of older epochs. -/
def enter (epochNumber : UInt64) (side : EncryptSide) (e : Dtls13Epoch κ) : Dtls13Epoch κ :=
  if e.isValid = false then { e with epochNumber := epochNumber, isValid := true, side := some side }
  else if e.side ≠ some side then { e with side := some .encryptAndDecryptSide }
  else e

/-- The epoch is for decrypting, or for both. -/
def decrypts (e : Dtls13Epoch κ) : Bool := e.side.any EncryptSide.dec

end Dtls13Epoch

/-- The fields of `WOLFSSL` that the record layer works with. The two pointers to an epoch are
the numbers of their slots. -/
structure RecordLayer (κ : Type) where
  dtls13Epochs : List (Dtls13Epoch κ)
  dtls13Epoch : UInt64
  dtls13PeerEpoch : UInt64
  dtls13EncryptEpoch : Nat
  dtls13DecryptEpoch : Nat
  encrypt : Option κ
  decrypt : Option κ
  handShakeDone : Bool
  dtlsHsRetain : Bool
  dtlsStateful : Bool
  serverEnd : Bool
  used : List (κ × UInt64)
  accepted : List (κ × UInt64)
  writeGiven : List κ
  readGiven : List κ
  deriving DecidableEq, Repr

namespace RecordLayer

def slot (s : RecordLayer κ) (i : Nat) : Dtls13Epoch κ := s.dtls13Epochs.getD i .cleared

def modifySlot (s : RecordLayer κ) (i : Nat) (f : Dtls13Epoch κ → Dtls13Epoch κ) : RecordLayer κ :=
  { s with dtls13Epochs := s.dtls13Epochs.modify i f }

/-- `Dtls13GetEpoch`. -/
def getEpoch (s : RecordLayer κ) (epochNumber : UInt64) : Option Nat :=
  s.dtls13Epochs.findIdx? fun e => e.epochNumber = epochNumber && e.isValid

/-- `Dtls13SetOlderEpochSide`. -/
def setOlderEpochSide (s : RecordLayer κ) (epochNumber : UInt64) (side : EncryptSide) :
    RecordLayer κ :=
  { s with dtls13Epochs := s.dtls13Epochs.map fun e =>
      if e.isValid && e.epochNumber < epochNumber then { e with side := some side } else e }

/-- The loop of `Dtls13NewEpochSlot` from slot `i` on. It takes the first slot that is free, or
else the last one whose epoch is not in use. -/
def newEpochSlotLoop (own peer : UInt64) : Nat → Option Nat → List (Dtls13Epoch κ) → Option Nat
  | _, oldest, [] => oldest
  | i, oldest, e :: es =>
    if e.isValid = false then some i
    else newEpochSlotLoop own peer (i + 1)
      (if e.epochNumber ≠ own ∧ e.epochNumber ≠ peer ∧ e.epochNumber < 0xffffffffffffffff then some i
        else oldest) es

/-- `Dtls13NewEpochSlot`, before the slot is cleared. -/
def newEpochSlot (s : RecordLayer κ) : Option Nat :=
  newEpochSlotLoop s.dtls13Epoch s.dtls13PeerEpoch 0 none s.dtls13Epochs

/-- `Dtls13NewEpoch` for the slot `i`, up to the older epochs. -/
def enterKeys (epochNumber : UInt64) (side : EncryptSide) (keys : DerivedKeys κ) (i : Nat)
    (s : RecordLayer κ) : RecordLayer κ :=
  { s.modifySlot i fun e => (e.copyKeys side keys).enter epochNumber side with
    writeGiven := if side.enc then keys.write :: s.writeGiven else s.writeGiven
    readGiven := if side.dec then keys.read :: s.readGiven else s.readGiven }

/-- `Dtls13NewEpoch`, for the slot `i`. -/
def enterEpoch (epochNumber : UInt64) (side : EncryptSide) (keys : DerivedKeys κ) (i : Nat)
    (s : RecordLayer κ) : RecordLayer κ :=
  let s := s.enterKeys epochNumber side keys i
  if s.handShakeDone && (s.slot i).decrypts then
    s.setOlderEpochSide (epochNumber - 1) .encryptSideOnly
  else s

/-- `Dtls13NewEpoch`. -/
def newEpoch (epochNumber : UInt64) (side : EncryptSide) (keys : DerivedKeys κ)
    (s : RecordLayer κ) : Int32 × RecordLayer κ :=
  match s.getEpoch epochNumber with
  | some i => (0, s.enterEpoch epochNumber side keys i)
  | none =>
    match s.newEpochSlot with
    | none => (badStateE, s)
    | some i =>
      (0, (s.modifySlot i fun e => if e.isValid then .cleared else e).enterEpoch
        epochNumber side keys i)

/-- `Dtls13SetEpochKeys`. -/
def setEpochKeys (epochNumber : UInt64) (side : EncryptSide) (s : RecordLayer κ) :
    Int32 × RecordLayer κ :=
  match s.getEpoch epochNumber with
  | none => (badStateE, s)
  | some i =>
    let e := s.slot i
    if e.side ≠ some .encryptAndDecryptSide ∧ e.side ≠ some side then (badStateE, s)
    else
      let s := { s with
        dtls13EncryptEpoch := if side.enc then i else s.dtls13EncryptEpoch
        dtls13DecryptEpoch := if side.dec then i else s.dtls13DecryptEpoch }
      -- epoch 0 has no key to copy
      if epochNumber = 0 then (0, s)
      else (0, { s with
        encrypt := if side.enc then e.writeKeys else s.encrypt
        decrypt := if side.dec then e.readKeys else s.decrypt })

/-- `Dtls13ReconstructEpochNumber`. -/
def reconstructEpochNumber (s : RecordLayer κ) (epochBits : UInt8) : Except Int32 UInt64 :=
  if getEpochBits s.dtls13PeerEpoch = epochBits then .ok s.dtls13PeerEpoch
  else
    let epoch := s.dtls13Epochs.foldl (fun epoch e =>
      if e.isValid && getEpochBits e.epochNumber = epochBits && epoch < e.epochNumber then
        e.epochNumber else epoch) 0
    if epoch = 0 then .error sequenceError else .ok epoch

/-! ## The table -/

variable {s : RecordLayer κ} {i j : Nat} {n : UInt64}

theorem slot_modifySlot (f : Dtls13Epoch κ → Dtls13Epoch κ) (hi : i < s.dtls13Epochs.length)
    (j : Nat) : (s.modifySlot i f).slot j = if j = i then f (s.slot i) else s.slot j := by
  unfold slot modifySlot
  rw [List.getD_eq_getElem?_getD, List.getElem?_modify]
  split_ifs with hji <;> grind

theorem slot_setOlderEpochSide (n : UInt64) (side : EncryptSide) (j : Nat) :
    (s.setOlderEpochSide n side).slot j =
      if (s.slot j).isValid && (s.slot j).epochNumber < n then { s.slot j with side := some side }
      else s.slot j := by
  unfold slot setOlderEpochSide
  by_cases hj : j < s.dtls13Epochs.length
  · simp [hj]
  · have hnone : s.dtls13Epochs[j]? = none := List.getElem?_eq_none (Nat.le_of_not_lt hj)
    simp [hnone, Dtls13Epoch.cleared]

theorem lt_length_of_isValid (h : (s.slot i).isValid = true) : i < s.dtls13Epochs.length := by
  by_contra hi
  have hnone : s.dtls13Epochs[i]? = none := List.getElem?_eq_none (Nat.le_of_not_lt hi)
  simp [slot, hnone, Dtls13Epoch.cleared] at h

theorem getEpoch_eq_some (h : s.getEpoch n = some i) :
    (s.slot i).epochNumber = n ∧ (s.slot i).isValid = true := by
  obtain ⟨hi, hp, -⟩ := List.findIdx?_eq_some_iff_getElem.mp h
  simpa [slot, hi] using hp

theorem getEpoch_eq_none (h : s.getEpoch n = none) (hi : (s.slot i).isValid = true) :
    (s.slot i).epochNumber ≠ n := by
  intro hn
  have hlt := lt_length_of_isValid hi
  have hslot : s.slot i = s.dtls13Epochs[i] := by simp [slot, hlt]
  have hall := List.findIdx?_eq_none_iff.mp h _ (List.getElem_mem hlt)
  rw [hslot] at hn hi
  simp [hn, hi] at hall

theorem newEpochSlotLoop_eq_some {own peer : UInt64} {l : List (Dtls13Epoch κ)} {r : Nat}
    {oldest : Option Nat} (h : newEpochSlotLoop own peer i oldest l = some r) :
    oldest = some r ∨ ∃ k e, r = i + k ∧ l[k]? = some e ∧
      (e.isValid = true → e.epochNumber ≠ own ∧ e.epochNumber ≠ peer) := by
  induction l generalizing i oldest with
  | nil => exact .inl h
  | cons e es ih =>
    unfold newEpochSlotLoop at h
    split_ifs at h with hfree huse
    · exact .inr ⟨0, e, by simpa using h.symm, rfl, by simp [hfree]⟩
    · rcases ih h with hold | ⟨k, e', rfl, hk, hused⟩
      · exact .inr ⟨0, e, by simpa using hold.symm, rfl, fun _ => ⟨huse.1, huse.2.1⟩⟩
      · exact .inr ⟨k + 1, e', by omega, by simpa using hk, hused⟩
    · rcases ih h with hold | ⟨k, e', rfl, hk, hused⟩
      · exact .inl hold
      · exact .inr ⟨k + 1, e', by omega, by simpa using hk, hused⟩

/-- The slot that `Dtls13NewEpochSlot` takes is free, or of an epoch that is not in use. -/
theorem newEpochSlot_eq_some (h : s.newEpochSlot = some i) :
    i < s.dtls13Epochs.length ∧ ((s.slot i).isValid = true →
      (s.slot i).epochNumber ≠ s.dtls13Epoch ∧ (s.slot i).epochNumber ≠ s.dtls13PeerEpoch) := by
  rcases newEpochSlotLoop_eq_some h with hnone | ⟨k, e, rfl, hk, hused⟩
  · cases hnone
  · rw [Nat.zero_add]
    obtain ⟨hlt, -⟩ := List.getElem?_eq_some_iff.mp hk
    refine ⟨hlt, ?_⟩
    simpa [slot, hk] using hused

end RecordLayer
end LitexDtls.WolfSsl
