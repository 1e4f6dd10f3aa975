import LitexDtls.Library.Memory
import LitexDtls.Library.Run
import LitexDtls.Library.Spans
import LitexDtls.WolfSsl.Errors

/-!
# Putting a handshake message together

`DtlsMsgSet` of wolfSSL and what it calls: the fragments of one handshake message are kept in
buckets, each a piece of the message that has come without a gap, until one bucket is the
whole message. The type of the bytes is a parameter, and so is the memory that the allocator
hands out, with whatever it holds: none for an allocation that fails.

The copies are right for most fragments and wrong for two kinds: one that falls between two
buckets and ends before the second, and one that begins before a bucket and ends inside it.
A run without these (`WellPlaced`) keeps `Sound`.
-/
namespace LitexDtls.WolfSsl
open Library

def dtlsFragPoolSz : Nat := 10

/-- The type of a `DtlsMsg` that holds nothing yet. -/
def noShake : UInt8 := 255

variable {β : Type}

/-- `DtlsFragBucket`: `sz` bytes of a message, from `offset` on. -/
structure FragBucket (β : Type) where
  offset : Nat
  sz : Nat
  buf : Mem β

namespace FragBucket

@[grind] def stop (b : FragBucket β) : Nat := b.offset + b.sz

/-- `DtlsMsgCreateFragBucket`. -/
def create (offset : Nat) (data : List β) (block : Mem β) : FragBucket β :=
  ⟨offset, data.length, block.write 0 data⟩

/-- `XREALLOC`: the bytes of the bucket at the start of a new block. -/
def realloc (b : FragBucket β) (block : Mem β) : Mem β := block.write 0 (b.buf.read 0 b.sz)

/-- The part of `DtlsMsgCombineFragBuckets` that puts the data and the bytes of `cur` into the
new bucket `buf`, of which the memory from `newOffsetEnd` on is already filled. `moved` says
that `cur` is not the bucket that was expanded. -/
def fill (cur : FragBucket β) (moved : Bool) (newOffset newOffsetEnd offset : Nat)
    (data : List β) (buf : Mem β) : Mem β :=
  let offsetEnd := offset + data.length
  if newOffset = offset then
    if newOffsetEnd ≤ offsetEnd then
      buf.write 0 (data.take (min data.length (newOffsetEnd - newOffset)))
    else
      -- the source has `cur.sz - (offsetEnd - cur.offset)`, where the difference may wrap
      let buf := buf.write data.length
        ((if moved then cur.buf else buf).read 0 (cur.sz + cur.offset - offsetEnd))
      buf.write 0 data
  else
    let buf := if moved then buf.write 0 (cur.buf.read 0 cur.sz) else buf
    buf.write cur.sz ((data.drop (cur.stop - offset)).take (newOffsetEnd - cur.stop))

/-- `DtlsMsgCombineFragBuckets`: the bucket that replaces `cur`, the buckets that the data
covers, and `next` if the data reaches it. -/
def combine (cur : FragBucket β) (next : Option (FragBucket β)) (offset : Nat) (data : List β)
    (block : Mem β) : FragBucket β :=
  let offsetEnd := offset + data.length
  let newOffset := min cur.offset offset
  match next.filter (·.offset ≤ offsetEnd) with
  | none =>
    let newOffsetEnd := max cur.stop offsetEnd
    ⟨newOffset, newOffsetEnd - newOffset,
      cur.fill false newOffset newOffsetEnd offset data (cur.realloc block)⟩
  | some next =>
    let newSz := next.stop - newOffset
    -- the larger of the two buckets is expanded, and `next` put at the end of it first
    if next.sz ≤ cur.sz then
      let buf := (cur.realloc block).write (next.offset - newOffset) (next.buf.read 0 next.sz)
      ⟨newOffset, newSz, cur.fill false newOffset next.offset offset data buf⟩
    else
      let tmp := next.realloc block
      let buf := tmp.write (next.offset - newOffset) (tmp.read 0 next.sz)
      ⟨newOffset, newSz, cur.fill true newOffset next.offset offset data buf⟩

/-! ## What the copies do -/

def span (b : FragBucket β) : Span := ⟨b.offset, b.sz⟩

@[simp] theorem start_span (b : FragBucket β) : b.span.start = b.offset := rfl
@[simp] theorem len_span (b : FragBucket β) : b.span.len = b.sz := rfl
@[simp] theorem stop_span (b : FragBucket β) : b.span.stop = b.stop := rfl

/-- The bytes of the bucket are those of the message `M`. -/
def Holds (M : Mem β) (b : FragBucket β) : Prop := ∀ i < b.sz, b.buf i = M (b.offset + i)

theorem holds_create (M : Mem β) (offset len : Nat) (block : Mem β) :
    (create offset (M.read offset len) block).Holds M := by
  intro i hi
  have hlen : i < len := by simpa [create] using hi
  change block.write 0 (M.read offset len) i = M (offset + i)
  rw [Mem.write_read_apply, if_pos (by omega), Nat.sub_zero]

theorem Holds.realloc {M : Mem β} {b : FragBucket β} (h : b.Holds M) (block : Mem β) {i : Nat}
    (hi : i < b.sz) : b.realloc block i = M (b.offset + i) := by
  rw [FragBucket.realloc, Mem.write_read_apply, if_pos (by omega), Nat.sub_zero, Nat.zero_add]
  exact h i hi

variable {M : Mem β} {cur : FragBucket β} {offset len newOffsetEnd : Nat}

/-- `fill` is right when the data does not end inside `cur` unless it begins there, and leaves
the memory from `newOffsetEnd` on alone. -/
theorem fill_apply {moved : Bool} {buf : Mem β}
    (hcur : ∀ i < cur.sz, (if moved then cur.buf else buf) i = M (cur.offset + i))
    (htouch : offset ≤ cur.stop) (hstop : cur.stop ≤ newOffsetEnd)
    (hend : newOffsetEnd ≤ offset + len ∨ offset + len = cur.offset ∧ newOffsetEnd = cur.stop)
    (i : Nat) :
    cur.fill moved (min cur.offset offset) newOffsetEnd offset (M.read offset len) buf i =
      if min cur.offset offset + i < newOffsetEnd then M (min cur.offset offset + i)
      else buf i := by
  unfold fill
  simp only [Mem.length_read]
  by_cases hfront : min cur.offset offset = offset
  · generalize (if moved then cur.buf else buf) = src at hcur ⊢
    rw [if_pos hfront, hfront]
    by_cases hcover : newOffsetEnd ≤ offset + len
    · -- the data covers `cur`
      rw [if_pos hcover, Mem.take_read, Mem.write_read_apply]
      split_ifs with hdata hi hi
      · rw [Nat.sub_zero]
      all_goals first | rfl | omega
    · -- the data ends where `cur` begins
      have hadj : offset + len = cur.offset := by omega
      rw [if_neg hcover, Mem.write_read_apply]
      split_ifs with hdata hi hi
      · rw [Nat.sub_zero]
      · omega
      · rw [Mem.write_read_apply, if_pos (by grind), Nat.zero_add, hcur (i - len) (by grind)]
        congr 1
        omega
      · rw [Mem.write_read_apply, if_neg (by grind)]
  · have hback : min cur.offset offset = cur.offset := by omega
    have hreach : newOffsetEnd ≤ offset + len := by omega
    -- the bytes of `cur` are at the start of the new bucket
    obtain ⟨base, hbase, hin, hout⟩ : ∃ base,
        (if moved then buf.write 0 (cur.buf.read 0 cur.sz) else buf) = base ∧
        (∀ i < cur.sz, base i = M (cur.offset + i)) ∧ ∀ i, cur.sz ≤ i → base i = buf i := by
      refine ⟨_, rfl, ?_⟩
      cases moved with
      | false => exact ⟨fun i hi => hcur i hi, fun _ _ => rfl⟩
      | true =>
        refine ⟨fun i hi => ?_, fun i hi => ?_⟩
        · have := hcur i hi
          rw [if_pos rfl] at this ⊢
          rw [Mem.write_read_apply, if_pos (by omega), Nat.sub_zero, Nat.zero_add, this]
        · rw [if_pos rfl, Mem.write_read_apply, if_neg (by omega)]
    rw [if_neg hfront, hback, hbase, Mem.drop_read _ _ (by omega), Mem.take_read,
      Mem.write_read_apply]
    split_ifs with hdata hi hi
    · congr 1
      grind
    · grind
    · exact hin i (by grind)
    · exact hout i (by grind)

/-- The data may be combined with `cur`: it touches it, adds to it, and begins before it only to
end at its beginning or not inside it. -/
structure Joins (cur : FragBucket β) (offset len : Nat) : Prop where
  touches : offset ≤ cur.stop
  adds : offset < cur.offset ∨ cur.stop < offset + len
  placed : cur.offset ≤ offset ∨ offset + len = cur.offset ∨ cur.stop ≤ offset + len

/-- The bucket that the data reaches. -/
def reached (next : Option (FragBucket β)) (offsetEnd : Nat) : Option (FragBucket β) :=
  next.filter (·.offset ≤ offsetEnd)

@[simp] theorem reached_none (offsetEnd : Nat) :
    reached (none : Option (FragBucket β)) offsetEnd = none := rfl

theorem reached_some_of_le {b : FragBucket β} {offsetEnd : Nat} (h : b.offset ≤ offsetEnd) :
    reached (some b) offsetEnd = some b := by simp [reached, Option.filter, h]

theorem reached_some_of_lt {b : FragBucket β} {offsetEnd : Nat} (h : offsetEnd < b.offset) :
    reached (some b) offsetEnd = none := by simp [reached, Option.filter, h]

theorem of_reached {next : Option (FragBucket β)} {b : FragBucket β} {offsetEnd : Nat}
    (h : reached next offsetEnd = some b) : b ∈ next ∧ b.offset ≤ offsetEnd := by
  simpa [reached, Option.filter_eq_some_iff] using h

@[simp] theorem combine_offset (cur : FragBucket β) (next : Option (FragBucket β)) (offset : Nat)
    (data : List β) (block : Mem β) :
    (cur.combine next offset data block).offset = min cur.offset offset := by
  unfold combine
  dsimp only
  split
  · rfl
  · split_ifs <;> rfl

theorem combine_stop {next : Option (FragBucket β)} (data : List β) (block : Mem β)
    (htouch : offset ≤ cur.stop) (hnext : ∀ b ∈ next, cur.stop < b.offset) :
    (cur.combine next offset data block).stop =
      ((reached next (offset + data.length)).map stop).getD
        (max cur.stop (offset + data.length)) := by
  unfold combine
  cases hreach : reached next (offset + data.length) with
  | none =>
    rw [reached] at hreach
    simp only [hreach, stop, Option.map_none, Option.getD_none] at htouch ⊢
    omega
  | some b =>
    have hgap := hnext b (of_reached hreach).1
    rw [reached] at hreach
    simp only [hreach, Option.map_some, Option.getD_some]
    split_ifs <;> (simp only [stop] at htouch hgap ⊢; omega)

/-- A combination goes at least as far as the bucket did. -/
theorem stop_le_combine {next : Option (FragBucket β)} (data : List β) (block : Mem β)
    (htouch : offset ≤ cur.stop) (hnext : ∀ b ∈ next, cur.stop < b.offset) :
    cur.stop ≤ (cur.combine next offset data block).stop := by
  rw [combine_stop _ block htouch hnext]
  cases hreach : reached next (offset + data.length) with
  | none => exact le_max_left _ _
  | some b =>
    have := hnext b (of_reached hreach).1
    exact this.le.trans (Nat.le_add_right _ _)

/-- A bucket made from right buckets and the bytes of the message is right. -/
theorem combine_holds {next : Option (FragBucket β)} (block : Mem β) (hcur : cur.Holds M)
    (hnext : ∀ b ∈ next, b.Holds M ∧ cur.stop < b.offset) (hjoins : cur.Joins offset len) :
    (cur.combine next offset (M.read offset len) block).Holds M := by
  obtain ⟨htouch, hadds, hplaced⟩ := hjoins
  intro i hi
  rw [combine_offset]
  have hi' : min cur.offset offset + i <
      (cur.combine next offset (M.read offset len) block).stop := by
    rw [stop, combine_offset]
    omega
  rw [combine_stop _ block htouch fun b hb => (hnext b hb).2, Mem.length_read] at hi'
  unfold combine
  simp only [Mem.length_read]
  cases hreach : reached next (offset + len) with
  | none =>
    have hkept : ∀ i < cur.sz,
        (if false then cur.buf else cur.realloc block) i = M (cur.offset + i) :=
      fun i hi => hcur.realloc block hi
    rw [hreach, Option.map_none, Option.getD_none] at hi'
    rw [reached] at hreach
    simp only [hreach]
    rw [fill_apply hkept htouch (by omega) (by omega), if_pos hi']
  | some b =>
    obtain ⟨hb, hle⟩ := of_reached hreach
    obtain ⟨hholds, hgap⟩ := hnext b hb
    rw [hreach, Option.map_some, Option.getD_some, stop] at hi'
    rw [reached] at hreach
    simp only [hreach]
    by_cases hlarge : b.sz ≤ cur.sz
    · -- `cur` is expanded
      rw [if_pos hlarge]
      have hkept : ∀ i < cur.sz, (if false then cur.buf else (cur.realloc block).write
          (b.offset - min cur.offset offset) (b.buf.read 0 b.sz)) i = M (cur.offset + i) := by
        intro i hi
        rw [if_neg (by decide), Mem.write_read_apply, if_neg (by grind)]
        exact hcur.realloc block hi
      dsimp only
      rw [fill_apply hkept htouch (by omega) (by omega)]
      split_ifs with hfront
      · rfl
      · rw [Mem.write_read_apply, if_pos (by omega), Nat.zero_add, hholds _ (by omega)]
        congr 1
        omega
    · -- `next` is expanded
      rw [if_neg hlarge]
      have hkept : ∀ i < cur.sz, (if true then cur.buf else (b.realloc block).write
          (b.offset - min cur.offset offset) ((b.realloc block).read 0 b.sz)) i =
            M (cur.offset + i) := fun i hi => hcur i hi
      dsimp only
      rw [fill_apply hkept htouch (by omega) (by omega)]
      split_ifs with hfront
      · rfl
      · rw [Mem.write_read_apply, if_pos (by omega), Nat.zero_add,
          hholds.realloc block (by omega)]
        congr 1
        omega

/-- Data that begins before `cur` and ends short of its end has the first byte of `cur` behind
it, wherever it ends. -/
theorem combine_misplaced {next : Option (FragBucket β)} (block : Mem β) (hcur : cur.Holds M)
    (hpos : 0 < cur.sz) (hnext : ∀ b ∈ next, cur.stop < b.offset) (hfront : offset < cur.offset)
    (hend : offset + len < cur.stop) :
    (cur.combine next offset (M.read offset len) block).buf len = M cur.offset := by
  have hmin : min cur.offset offset = offset := by omega
  have hmax : max cur.stop (offset + len) = cur.stop := by omega
  have hnone : reached next (offset + len) = none := by
    cases next with
    | none => rfl
    | some b => exact reached_some_of_lt (hend.trans (hnext b rfl))
  rw [reached] at hnone
  unfold combine
  simp only [Mem.length_read, hnone, hmin, hmax, fill, if_pos, if_neg (Nat.not_le_of_lt hend)]
  rw [Mem.write_read_apply, if_neg (by omega), Mem.write_read_apply, if_pos (by grind),
    Nat.sub_self, if_neg (by decide)]
  exact hcur.realloc block hpos

end FragBucket
end LitexDtls.WolfSsl
