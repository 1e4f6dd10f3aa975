import Mathlib.Data.List.Sort
import LitexDtls.Library.Memory
import LitexDtls.Library.Run
import LitexDtls.WolfSsl.Dtls13
import LitexDtls.WolfSsl.Errors

/-!
# ACK messages

The list of the records that have come and are not acknowledged yet, and the ACK that is
written from it and read by the other side. With memory for each record, the list is kept in the
order of the numbers, without duplicates, whatever the order in which the records come
(`seenAfter_eq_iff`). Its length is not checked: an ACK of 4096 records or more does not fit into
its own length field (`readAckMessage_ackMessage_iff`), nor into the buffer that is made ready
for it (`length_writeAckMessage_le_ackSpace_iff`).
-/
namespace LitexDtls.WolfSsl
open Library

/-! ## The list of seen records -/

/-- The order of the list of seen records. -/
@[grind] def RecordNumber.Before (a b : RecordNumber) : Prop :=
  a.epoch < b.epoch ∨ a.epoch = b.epoch ∧ a.seq < b.seq

instance (a b : RecordNumber) : Decidable (a.Before b) := inferInstanceAs (Decidable (_ ∨ _))

/-- `Dtls13RtxAddAck`; `memory` is what the allocator has. -/
def rtxAddAck (memory : Bool) (rn : RecordNumber) : List RecordNumber → Int32 × List RecordNumber
  | [] => if memory then (0, [rn]) else (memoryError, [])
  | cur :: rest =>
    if cur.epoch = rn.epoch ∧ cur.seq = rn.seq then (0, cur :: rest)
    else if rn.Before cur then
      if memory then (0, rn :: cur :: rest) else (memoryError, cur :: rest)
    else
      let (ret, rest) := rtxAddAck memory rn rest
      (ret, cur :: rest)

/-- `Dtls13RtxRemoveCurAck`, for the record with number `rn`. -/
def rtxRemoveCurAck (rn : RecordNumber) (seen : List RecordNumber) : List RecordNumber :=
  seen.erase rn

namespace RecordNumber
variable {a b c rn : RecordNumber} {seen : List RecordNumber}

theorem Before.trans (hab : a.Before b) (hbc : b.Before c) : a.Before c := by grind

theorem Before.ne (h : a.Before b) : a ≠ b := by grind

theorem before_of_not (hne : ¬ (b.epoch = a.epoch ∧ b.seq = a.seq)) (h : ¬ a.Before b) :
    b.Before a := by grind

theorem mem_rtxAddAck (rn x : RecordNumber) (seen : List RecordNumber) :
    x ∈ (rtxAddAck true rn seen).2 ↔ x = rn ∨ x ∈ seen := by
  fun_induction rtxAddAck true rn seen with grind [RecordNumber]

theorem mem_of_mem_rtxAddAck {memory : Bool} {x : RecordNumber}
    (h : x ∈ (rtxAddAck memory rn seen).2) : x = rn ∨ x ∈ seen := by
  fun_induction rtxAddAck memory rn seen <;> grind

/-- The list stays in order, and without duplicates. -/
theorem sorted_rtxAddAck (memory : Bool) (rn : RecordNumber) (h : seen.Pairwise Before) :
    (rtxAddAck memory rn seen).2.Pairwise Before := by
  induction seen with
  | nil => cases memory <;> simp [rtxAddAck]
  | cons cur rest ih =>
    obtain ⟨hcur, hrest⟩ := List.pairwise_cons.mp h
    unfold rtxAddAck
    by_cases hsame : cur.epoch = rn.epoch ∧ cur.seq = rn.seq
    · simpa [hsame] using h
    by_cases hbefore : rn.Before cur
    · have hall : ∀ x ∈ cur :: rest, rn.Before x := by
        rintro x (_ | ⟨_, hx⟩)
        · exact hbefore
        · exact hbefore.trans (hcur x hx)
      rw [if_neg hsame, if_pos hbefore]
      split_ifs
      · exact List.pairwise_cons.mpr ⟨hall, h⟩
      · exact h
    · rw [if_neg hsame, if_neg hbefore]
      apply List.pairwise_cons.mpr ⟨fun x hx => ?_, ih hrest⟩
      rcases mem_of_mem_rtxAddAck hx with rfl | hx
      · exact before_of_not hsame hbefore
      · exact hcur x hx

instance : Std.Irrefl Before := ⟨fun _ h => h.ne rfl⟩
instance : Std.Antisymm Before := ⟨fun _ _ hab hba => absurd rfl (hab.trans hba).ne⟩

end RecordNumber

/-- The list after records with these numbers have come. -/
def seenAfter (rns : List RecordNumber) : List RecordNumber :=
  run (fun seen rn => (rtxAddAck true rn seen).2) [] rns

namespace RecordNumber
variable {rns rns' : List RecordNumber}

theorem sorted_run_rtxAddAck (rns : List RecordNumber) {seen : List RecordNumber}
    (h : seen.Pairwise Before) :
    (run (fun seen rn => (rtxAddAck true rn seen).2) seen rns).Pairwise Before := by
  induction rns generalizing seen with
  | nil => exact h
  | cons rn rns ih => exact ih (sorted_rtxAddAck true rn h)

theorem mem_run_rtxAddAck (rns : List RecordNumber) (seen : List RecordNumber)
    (x : RecordNumber) :
    x ∈ run (fun seen rn => (rtxAddAck true rn seen).2) seen rns ↔ x ∈ rns ∨ x ∈ seen := by
  induction rns generalizing seen with
  | nil => simp
  | cons rn rns ih =>
    rw [run_cons, ih, mem_rtxAddAck, List.mem_cons]
    tauto

theorem sorted_seenAfter (rns : List RecordNumber) : (seenAfter rns).Pairwise Before :=
  sorted_run_rtxAddAck rns List.Pairwise.nil

@[simp] theorem mem_seenAfter {x : RecordNumber} : x ∈ seenAfter rns ↔ x ∈ rns := by
  rw [seenAfter, mem_run_rtxAddAck]
  simp

/-- The list says which records have come, and nothing about how they came, when there was memory
for each of them. -/
theorem seenAfter_eq_iff (rns rns' : List RecordNumber) :
    seenAfter rns = seenAfter rns' ↔ ∀ x, x ∈ rns ↔ x ∈ rns' := by
  constructor
  · intro h x
    rw [← mem_seenAfter, h, mem_seenAfter]
  · intro h
    refine (sorted_seenAfter rns).eq_of_mem_iff (sorted_seenAfter rns') fun x => ?_
    rw [mem_seenAfter, mem_seenAfter]
    exact h x

end RecordNumber

/-! ## The message -/

def dtls13RnSize : Nat := 16

/-- `Dtls13GetAckListLength`. -/
def ackListLength (seen : List RecordNumber) : UInt16 := UInt16.ofNat (dtls13RnSize * seen.length)

/-- One entry of an ACK. -/
def RecordNumber.bytes (rn : RecordNumber) : List UInt8 := be64 rn.epoch ++ be64 rn.seq

/-- What `Dtls13WriteAckMessage` writes behind the space for the record header. -/
def writeAckMessage (seen : List RecordNumber) : List UInt8 :=
  be16 (ackListLength seen) ++ seen.flatMap RecordNumber.bytes

/-- The length that it returns; so much of it is sent. -/
def ackLength (seen : List RecordNumber) : Nat := (ackListLength seen).toNat + 2

def ackMessage (seen : List RecordNumber) : List UInt8 :=
  (writeAckMessage seen).take (ackLength seen)

/-- The record numbers in the list of an ACK. -/
def readNumbers : Nat → List UInt8 → List RecordNumber
  | 0, _ => []
  | n + 1, l => ⟨word64 l, word64 (l.drop 8)⟩ :: readNumbers n (l.drop dtls13RnSize)

/-- What `DoDtls13Ack` reads: the numbers, and the length of the message. -/
def readAckMessage (input : List UInt8) : Except Int32 (List RecordNumber × Nat) :=
  if input.length < 2 then .error bufferError
  else
    let length := (word16 input).toNat
    if input.length < 2 + length then .error bufferError
    else if length % dtls13RnSize ≠ 0 then .error parseError
    else .ok (readNumbers (length / dtls13RnSize) (input.drop 2), length + 2)

namespace RecordNumber
variable {seen : List RecordNumber}

@[simp] theorem length_bytes (rn : RecordNumber) : rn.bytes.length = dtls13RnSize := rfl

theorem length_flatMap_bytes (seen : List RecordNumber) :
    (seen.flatMap bytes).length = dtls13RnSize * seen.length := by
  induction seen with
  | nil => rfl
  | cons rn seen ih =>
    rw [List.flatMap_cons, List.length_append, ih, length_bytes, List.length_cons, Nat.mul_succ,
      Nat.add_comm]

theorem take_flatMap_bytes (n : Nat) (seen : List RecordNumber) :
    (seen.flatMap bytes).take (dtls13RnSize * n) = (seen.take n).flatMap bytes := by
  induction n generalizing seen with
  | zero => simp
  | succ n ih =>
    cases seen with
    | nil => simp
    | cons rn seen =>
      rw [List.take_succ_cons, List.flatMap_cons, List.flatMap_cons, ← ih, Nat.mul_succ,
        Nat.add_comm, ← length_bytes rn, List.take_length_add_append]

theorem readNumbers_bytes {n : Nat} (hn : n ≤ seen.length) (rest : List UInt8) :
    readNumbers n (seen.flatMap bytes ++ rest) = seen.take n := by
  induction n generalizing seen with
  | zero => simp [readNumbers]
  | succ n ih =>
    obtain ⟨rn, seen, rfl⟩ := List.exists_cons_of_length_pos (by omega : 0 < seen.length)
    have hfirst : (rn :: seen).flatMap bytes ++ rest =
        be64 rn.epoch ++ (be64 rn.seq ++ (seen.flatMap bytes ++ rest)) := by
      simp [bytes]
    have hseq : (be64 rn.epoch ++ (be64 rn.seq ++ (seen.flatMap bytes ++ rest))).drop 8 =
        be64 rn.seq ++ (seen.flatMap bytes ++ rest) := rfl
    have hrest : (be64 rn.epoch ++ (be64 rn.seq ++ (seen.flatMap bytes ++ rest))).drop 16 =
        seen.flatMap bytes ++ rest := rfl
    rw [readNumbers, hfirst, hseq, word64_be64, word64_be64, show dtls13RnSize = 16 from rfl,
      hrest, ih (by simpa using hn), List.take_succ_cons]

end RecordNumber

theorem toNat_ackListLength (seen : List RecordNumber) :
    (ackListLength seen).toNat = dtls13RnSize * (seen.length % 4096) := by
  simp only [ackListLength, dtls13RnSize, UInt16.toNat_ofNat']
  omega

/-- The numbers that are sent are those that the length field reaches. -/
theorem ackMessage_eq (seen : List RecordNumber) :
    ackMessage seen =
      be16 (ackListLength seen) ++ (seen.take (seen.length % 4096)).flatMap RecordNumber.bytes := by
  have hlength : ackLength seen =
      (be16 (ackListLength seen)).length + dtls13RnSize * (seen.length % 4096) := by
    rw [ackLength, toNat_ackListLength, length_be16, Nat.add_comm]
  rw [ackMessage, writeAckMessage, hlength, List.take_length_add_append,
    RecordNumber.take_flatMap_bytes]

/-- What the other side reads, whatever follows the ACK: the numbers, as far as the length field
reaches. -/
theorem readAckMessage_ackMessage (seen : List RecordNumber) (rest : List UInt8) :
    readAckMessage (ackMessage seen ++ rest) =
      .ok (seen.take (seen.length % 4096), ackLength seen) := by
  have hmod := Nat.mod_le seen.length 4096
  have hlength := toNat_ackListLength seen
  have hword : word16 (ackMessage seen ++ rest) = ackListLength seen := by
    rw [ackMessage_eq, List.append_assoc]
    exact word16_be16 _
  have hdrop : (ackMessage seen ++ rest).drop 2 =
      (seen.take (seen.length % 4096)).flatMap RecordNumber.bytes ++ rest := by
    rw [ackMessage_eq, List.append_assoc]
    rfl
  have hsize : (ackMessage seen ++ rest).length =
      2 + dtls13RnSize * (seen.length % 4096) + rest.length := by
    rw [ackMessage_eq, List.length_append, List.length_append,
      RecordNumber.length_flatMap_bytes, List.length_take, Nat.min_eq_left hmod, length_be16]
  unfold readAckMessage
  rw [hword, hlength, hsize, hdrop, if_neg (by omega), if_neg (by omega), if_neg (by simp),
    Nat.mul_div_cancel_left _ (by decide), RecordNumber.readNumbers_bytes, List.take_take,
    Nat.min_self, ackLength, hlength]
  rw [List.length_take]
  omega

/-- An ACK says what it should if and only if it is for less than 4096 records. -/
theorem readAckMessage_ackMessage_iff (seen : List RecordNumber) (rest : List UInt8) :
    readAckMessage (ackMessage seen ++ rest) = .ok (seen, ackLength seen) ↔
      seen.length < 4096 := by
  rw [readAckMessage_ackMessage]
  constructor
  · intro h
    have htake : seen.take (seen.length % 4096) = seen := by simpa using h
    have hlength := congrArg List.length htake
    rw [List.length_take] at hlength
    omega
  · intro h
    rw [Nat.mod_eq_of_lt h, List.take_length]

/-- The space that `Dtls13WriteAckMessage` has made ready for the list, with the rest of what it
asks for behind it. -/
def ackSpace (seen : List RecordNumber) : Nat := 2 + (ackListLength seen).toNat

/-- What is written stays within the space for it if and only if there are less than 4096
records. -/
theorem length_writeAckMessage_le_ackSpace_iff (seen : List RecordNumber) :
    (writeAckMessage seen).length ≤ ackSpace seen ↔ seen.length < 4096 := by
  rw [writeAckMessage, List.length_append, RecordNumber.length_flatMap_bytes, ackSpace,
    toNat_ackListLength, dtls13RnSize, length_be16]
  omega

end LitexDtls.WolfSsl
