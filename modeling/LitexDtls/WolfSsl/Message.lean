import Mathlib.Data.List.TakeWhile
import LitexDtls.WolfSsl.Fragments

/-!
# Handshake messages that come in fragments

`DtlsMsgSet` on the model of `Fragments`: a fragment of a message is added to the buckets that
are already there, and the message is complete as soon as as many bytes are counted as it is
long.

`Sound` is what a run keeps: the buckets are separated, hold bytes of the message and are
counted rightly, or the message is complete and is the one that was sent.
-/
namespace LitexDtls.WolfSsl
open Library

variable {β : Type}

/-- `DtlsHandShakeHeader`. -/
@[ext] structure HandShakeHeader where
  type : UInt8
  length : Nat
  messageSeq : UInt16
  fragmentOffset : Nat
  fragmentLength : Nat
  deriving DecidableEq, Repr

/-- `DtlsMsg`. `fullMsg` is the header and the body of a complete message. -/
structure DtlsMsg (β : Type) where
  sz : Nat
  type : UInt8
  epoch : UInt16
  seq : UInt32
  fragBucketList : List (FragBucket β)
  fragBucketListCount : Nat
  bytesReceived : Nat
  ready : Bool
  encrypted : Bool
  fullMsg : Option (HandShakeHeader × Mem β)

/-- The arguments of `DtlsMsgSet` for one fragment. -/
structure Fragment (β : Type) where
  seq : UInt32
  epoch : UInt16
  type : UInt8
  offset : Nat
  data : List β
  totalLen : Nat
  encrypted : Bool

@[grind] def Fragment.stop (f : Fragment β) : Nat := f.offset + f.data.length

def Fragment.span (f : Fragment β) : Span := ⟨f.offset, f.data.length⟩

@[simp] theorem Fragment.start_span (f : Fragment β) : f.span.start = f.offset := rfl
@[simp] theorem Fragment.stop_span (f : Fragment β) : f.span.stop = f.stop := rfl
@[simp] theorem Fragment.len_span (f : Fragment β) : f.span.len = f.data.length := rfl

namespace DtlsMsg

/-- `DtlsMsgNew` for a message to be received. -/
def new (sz : Nat) : DtlsMsg β := ⟨sz, noShake, 0, 0, [], 0, 0, false, false, none⟩

/-- The search of `DtlsMsgSet` for the place of the data: the buckets passed, the list from the
place on, and whether the data is already there. -/
def findPlace (offset offsetEnd : Nat) :
    List (FragBucket β) → List (FragBucket β) × List (FragBucket β) × Bool
  | [] => ([], [], false)
  | cur :: rest =>
    if cur.offset ≤ offset ∧ offsetEnd ≤ cur.stop then ([], cur :: rest, true)
    else if offset ≤ cur.stop then ([], cur :: rest, false)
    else
      let (before, place, done) := findPlace offset offsetEnd rest
      (cur :: before, place, done)

/-- The first bucket that the data does not cover to its end. -/
def nextBucket (rest : List (FragBucket β)) (offsetEnd : Nat) : Option (FragBucket β) :=
  (rest.dropWhile (·.stop ≤ offsetEnd)).head?

/-- The buckets behind `cur` that a combination frees. -/
def freed (rest : List (FragBucket β)) (offsetEnd : Nat) : List (FragBucket β) :=
  rest.takeWhile (·.stop ≤ offsetEnd) ++
    (FragBucket.reached (nextBucket rest offsetEnd) offsetEnd).toList

/-- `DtlsMsgCombineFragBuckets` on the list, `cur` being the bucket behind `before`. -/
def combineBuckets (msg : DtlsMsg β) (before : List (FragBucket β)) (cur : FragBucket β)
    (rest : List (FragBucket β)) (f : Fragment β) (block : Mem β) : DtlsMsg β :=
  let gone := freed rest f.stop
  let bucket := cur.combine (nextBucket rest f.stop) f.offset f.data block
  { msg with
    fragBucketList := before ++ bucket :: rest.drop gone.length
    fragBucketListCount := msg.fragBucketListCount - gone.length
    bytesReceived :=
      msg.bytesReceived + bucket.sz - gone.foldl (fun overlapSz b => overlapSz + b.sz) cur.sz }

/-- The message with a new bucket between `before` and `after`. -/
def extend (msg : DtlsMsg β) (before after : List (FragBucket β)) (f : Fragment β)
    (block : Mem β) : DtlsMsg β :=
  { msg with
    fragBucketList := before ++ .create f.offset f.data block :: after
    bytesReceived := msg.bytesReceived + f.data.length
    fragBucketListCount := msg.fragBucketListCount + 1 }

/-- A new bucket between `before` and `after`, if the pool has room. -/
def insertBucket (msg : DtlsMsg β) (before after : List (FragBucket β)) (f : Fragment β)
    (block : Option (Mem β)) : Int32 × DtlsMsg β :=
  if dtlsFragPoolSz ≤ msg.fragBucketListCount then (dtlsTooManyFragmentsE, msg)
  else
    match block with
    | none => (0, msg)
    | some block => (0, msg.extend before after f block)

/-- The middle part of `DtlsMsgSet`: the fragment goes into the list of buckets. -/
def storeFragment (msg : DtlsMsg β) (f : Fragment β) (block : Option (Mem β)) :
    Int32 × DtlsMsg β :=
  if msg.fragBucketList = [] then
    match block with
    | none => (memoryError, msg)
    | some block => (0, { msg with
        fragBucketList := [.create f.offset f.data block]
        bytesReceived := f.data.length
        fragBucketListCount := msg.fragBucketListCount + 1 })
  else
    match findPlace f.offset f.stop msg.fragBucketList with
    | (_, _, true) => (0, msg)
    | (before, [], false) => msg.insertBucket before [] f block
    | (before, cur :: rest, false) =>
      if before = [] ∧ f.stop < cur.offset then msg.insertBucket [] (cur :: rest) f block
      else
        match block with
        | none => (0, msg)
        | some block => (0, msg.combineBuckets before cur rest f block)

/-- `DtlsMsgAssembleCompleteMessage`. -/
def assemble (msg : DtlsMsg β) : DtlsMsg β :=
  match msg.fragBucketList with
  | [] => msg
  | b :: _ =>
    if msg.fragBucketListCount ≠ 1 ∨ b.offset ≠ 0 ∨ b.sz ≠ msg.sz then msg
    else { msg with
      fullMsg := some (⟨msg.type, msg.sz, msg.seq.toUInt16, 0, msg.sz⟩, b.buf)
      ready := true
      fragBucketList := []
      fragBucketListCount := 0 }

/-- The fragment is of the message that the earlier ones were of. -/
def Matches (msg : DtlsMsg β) (f : Fragment β) : Prop :=
  msg.type = noShake ∨ msg.type = f.type ∧ msg.epoch = f.epoch ∧ msg.seq = f.seq

instance (msg : DtlsMsg β) (f : Fragment β) : Decidable (msg.Matches f) :=
  inferInstanceAs (Decidable (_ ∨ _))

/-- The fields that the first fragment fills in and the later ones are compared with. -/
def populate (msg : DtlsMsg β) (f : Fragment β) : DtlsMsg β :=
  if msg.type = noShake then
    { msg with type := f.type, epoch := f.epoch, seq := f.seq, encrypted := f.encrypted }
  else { msg with encrypted := msg.encrypted && f.encrypted }

/-- `DtlsMsgSet`. -/
def set (msg : DtlsMsg β) (f : Fragment β) (block : Option (Mem β)) : Int32 × DtlsMsg β :=
  if msg.sz ≠ f.totalLen ∨ f.totalLen < f.stop then (badFuncArg, msg)
  else if msg.ready then (0, msg)
  else if ¬ msg.Matches f then (sequenceError, msg)
  else
    let (ret, msg) := (msg.populate f).storeFragment f block
    if ret ≠ 0 then (ret, msg)
    else (0, if msg.bytesReceived = msg.sz then msg.assemble else msg)

/-! ## What the search finds -/

theorem findPlace_append (offset offsetEnd : Nat) (l : List (FragBucket β)) :
    (findPlace offset offsetEnd l).1 ++ (findPlace offset offsetEnd l).2.1 = l := by
  fun_induction findPlace offset offsetEnd l <;> grind

theorem findPlace_before (offset offsetEnd : Nat) (l : List (FragBucket β)) :
    ∀ b ∈ (findPlace offset offsetEnd l).1, b.stop < offset := by
  fun_induction findPlace offset offsetEnd l <;> grind

theorem findPlace_done {offset offsetEnd : Nat} {l : List (FragBucket β)}
    (h : (findPlace offset offsetEnd l).2.2 = true) :
    ∃ b ∈ l, b.offset ≤ offset ∧ offsetEnd ≤ b.stop := by
  fun_induction findPlace offset offsetEnd l <;> grind

theorem findPlace_place {offset offsetEnd : Nat} {l rest : List (FragBucket β)}
    {cur : FragBucket β} (h : (findPlace offset offsetEnd l).2 = (cur :: rest, false)) :
    offset ≤ cur.stop ∧ ¬ (cur.offset ≤ offset ∧ offsetEnd ≤ cur.stop) := by
  fun_induction findPlace offset offsetEnd l <;> grind

/-- The buckets that a combination frees are covered by the data, but for the last of them when
the data reaches it and ends inside it. -/
theorem freed_cases (rest : List (FragBucket β)) (offsetEnd : Nat) :
    ∃ tail, rest = freed rest offsetEnd ++ tail ∧
      ((FragBucket.reached (nextBucket rest offsetEnd) offsetEnd = none ∧
          (∀ b ∈ freed rest offsetEnd, b.stop ≤ offsetEnd) ∧
          ∀ b ∈ tail.head?, offsetEnd < b.offset) ∨
        ∃ b skipped, FragBucket.reached (nextBucket rest offsetEnd) offsetEnd = some b ∧
          freed rest offsetEnd = skipped ++ [b] ∧ (∀ c ∈ skipped, c.stop ≤ offsetEnd) ∧
          b.offset ≤ offsetEnd ∧ offsetEnd < b.stop) := by
  have hsplit := List.takeWhile_append_dropWhile (p := (·.stop ≤ offsetEnd)) (l := rest)
  have hskipped : ∀ b ∈ rest.takeWhile (·.stop ≤ offsetEnd), b.stop ≤ offsetEnd := by
    intro b hb
    simpa using List.mem_takeWhile_imp hb
  unfold freed nextBucket
  cases hdrop : rest.dropWhile (·.stop ≤ offsetEnd) with
  | nil =>
    rw [hdrop, List.append_nil] at hsplit
    exact ⟨[], by simp [hsplit], .inl ⟨rfl, by simpa using hskipped, by simp⟩⟩
  | cons b tail =>
    have hb : offsetEnd < b.stop := by
      have := List.head?_dropWhile_not (fun b : FragBucket β => b.stop ≤ offsetEnd) rest
      simpa [hdrop] using this
    rw [hdrop] at hsplit
    rw [List.head?_cons]
    by_cases hreach : b.offset ≤ offsetEnd
    · rw [FragBucket.reached_some_of_le hreach]
      exact ⟨tail, by simp [hsplit], .inr ⟨b, _, rfl, rfl, hskipped, hreach, hb⟩⟩
    · rw [FragBucket.reached_some_of_lt (Nat.lt_of_not_le hreach)]
      refine ⟨b :: tail, by simp [hsplit], .inl ⟨rfl, by simpa using hskipped, ?_⟩⟩
      simpa using hreach

theorem freed_append_drop (rest : List (FragBucket β)) (offsetEnd : Nat) :
    freed rest offsetEnd ++ rest.drop (freed rest offsetEnd).length = rest := by
  obtain ⟨tail, hrest, _⟩ := freed_cases rest offsetEnd
  exact List.prefix_iff_eq_append.mp ⟨tail, hrest.symm⟩

/-! ## One combination -/

section Combination
variable {cur : FragBucket β} {rest : List (FragBucket β)} {f : Fragment β}

theorem behind_cur (hsep : Span.Separated ((cur :: rest).map FragBucket.span)) :
    ∀ b ∈ rest, cur.stop < b.offset := by
  intro b hb
  exact (List.pairwise_cons.mp hsep).1 b.span (List.mem_map_of_mem hb)

theorem nextBucket_mem (rest : List (FragBucket β)) (offsetEnd : Nat) :
    ∀ b ∈ nextBucket rest offsetEnd, b ∈ rest := by
  intro b hb
  exact (List.dropWhile_subset _) (List.mem_of_mem_head? hb)

/-- The new bucket is the old one, the data and what is freed, and ends before the rest. -/
theorem combine_span (block : Mem β)
    (hsep : Span.Separated ((cur :: rest).map FragBucket.span))
    (hjoins : cur.Joins f.offset f.data.length) :
    (∀ x, (cur.combine (nextBucket rest f.stop) f.offset f.data block).span.Mem x ↔
      cur.span.Mem x ∨ f.span.Mem x ∨ Span.Covers ((freed rest f.stop).map FragBucket.span) x) ∧
    ∀ b ∈ rest.drop (freed rest f.stop).length,
      (cur.combine (nextBucket rest f.stop) f.offset f.data block).stop < b.offset := by
  obtain ⟨htouch, hadds, hplaced⟩ := hjoins
  have hbehind := behind_cur hsep
  have hstop := FragBucket.combine_stop f.data block htouch
    fun b hb => hbehind b (nextBucket_mem rest f.stop b hb)
  obtain ⟨tail, hrest, hcases⟩ := freed_cases rest f.stop
  have hdrop : rest.drop (freed rest f.stop).length = tail :=
    List.append_cancel_left ((freed_append_drop rest f.stop).trans hrest)
  have hfreed : ∀ b ∈ freed rest f.stop, cur.stop < b.offset :=
    fun b hb => hbehind b (by rw [hrest]; exact List.mem_append_left _ hb)
  have htail : Span.Separated (tail.map FragBucket.span) ∧
      ∀ b ∈ freed rest f.stop, ∀ c ∈ tail, b.stop < c.offset := by
    have h := (List.pairwise_cons.mp hsep).2
    rw [hrest, List.map_append] at h
    obtain ⟨_, ht, hft⟩ := List.pairwise_append.mp h
    exact ⟨ht, fun b hb c hc => hft _ (List.mem_map_of_mem hb) _ (List.mem_map_of_mem hc)⟩
  have hcovers (x : Nat) : Span.Covers ((freed rest f.stop).map FragBucket.span) x ↔
      ∃ b ∈ freed rest f.stop, b.offset ≤ x ∧ x < b.stop := by
    simp [Span.Covers, Span.Mem]
  rw [hdrop]
  simp only [hcovers, Span.Mem, FragBucket.start_span, FragBucket.stop_span,
    FragBucket.combine_offset, Fragment.span]
  rcases hcases with ⟨hnone, hskipped, hhead⟩ | ⟨b, skipped, hsome, hlast, hskipped, hle, hlt⟩
  · -- the data ends before what is left
    have hend : (cur.combine (nextBucket rest f.stop) f.offset f.data block).stop =
        max cur.stop f.stop := by
      rw [hstop, show f.offset + f.data.length = f.stop from rfl, hnone]
      rfl
    rw [hend]
    constructor
    · intro x
      constructor
      · intro hx
        grind
      · rintro (hx | hx | ⟨b, hb, hx⟩)
        · grind
        · grind
        · have := hskipped b hb
          have := hfreed b hb
          grind
    · intro b hb
      have hcur : cur.stop < b.offset :=
        hbehind b (by rw [hrest]; exact List.mem_append_right _ hb)
      cases tail with
      | nil => simp at hb
      | cons c tail =>
        have hc : f.stop < c.offset := hhead c rfl
        rcases List.mem_cons.mp hb with rfl | hb
        · omega
        · have hlater : c.stop < b.offset :=
            (List.pairwise_cons.mp htail.1).1 _ (List.mem_map_of_mem hb)
          have hpos : c.offset ≤ c.stop := Nat.le_add_right _ _
          omega
  · -- the data ends in the last bucket that is freed
    have hend : (cur.combine (nextBucket rest f.stop) f.offset f.data block).stop = b.stop := by
      rw [hstop, show f.offset + f.data.length = f.stop from rfl, hsome]
      rfl
    have hmem : b ∈ freed rest f.stop := by rw [hlast]; simp
    have hgap := hfreed b hmem
    rw [hend]
    refine ⟨fun x => ⟨fun hx => ?_, ?_⟩, fun c hc => htail.2 b hmem c hc⟩
    · by_cases hb : b.offset ≤ x
      · exact .inr (.inr ⟨b, hmem, hb, hx.2⟩)
      · grind
    · rintro (hx | hx | ⟨c, hc, hx⟩)
      · grind
      · grind
      · have := hfreed c hc
        rw [hlast] at hc
        rcases List.mem_append.mp hc with hc | hc
        · have := hskipped c hc
          grind
        · grind

end Combination

/-! ## Storing a fragment -/

def spans (msg : DtlsMsg β) : List Span := msg.fragBucketList.map FragBucket.span

/-- The buckets are pieces of the message `M`, apart from each other and counted rightly. -/
structure Parts (M : Mem β) (msg : DtlsMsg β) : Prop where
  separated : Span.Separated msg.spans
  inside : Span.Inside msg.spans msg.sz
  holds : ∀ b ∈ msg.fragBucketList, b.Holds M
  bytes : msg.bytesReceived = Span.total msg.spans
  count : msg.fragBucketListCount = msg.fragBucketList.length
  room : msg.fragBucketListCount ≤ dtlsFragPoolSz

/-- The bucket that a fragment is combined with. -/
def combinedWith (msg : DtlsMsg β) (f : Fragment β) : Option (FragBucket β) :=
  match findPlace f.offset f.stop msg.fragBucketList with
  | (before, cur :: _, false) => if before = [] ∧ f.stop < cur.offset then none else some cur
  | _ => none

/-- A fragment that begins before the bucket it is combined with does not end short of it, and
not inside it. -/
def WellPlaced (msg : DtlsMsg β) (f : Fragment β) : Prop :=
  ∀ cur ∈ msg.combinedWith f, cur.offset ≤ f.offset ∨ f.stop = cur.offset ∨ cur.stop ≤ f.stop

instance (msg : DtlsMsg β) (f : Fragment β) : Decidable (msg.WellPlaced f) :=
  inferInstanceAs (Decidable (∀ cur ∈ msg.combinedWith f, _))

/-- The fragment changes nothing because of an error, because there is no memory or because
it is there already. -/
def Ignored (msg : DtlsMsg β) (f : Fragment β) (block : Option (Mem β)) : Prop :=
  (msg.storeFragment f block).1 ≠ 0 ∨ block = none ∨
    ∃ b ∈ msg.fragBucketList, b.offset ≤ f.offset ∧ f.stop ≤ b.stop

theorem insertBucket_cases (msg : DtlsMsg β) (before after : List (FragBucket β))
    (f : Fragment β) (block : Option (Mem β)) :
    ((msg.insertBucket before after f block).2 = msg ∧
      ((msg.insertBucket before after f block).1 ≠ 0 ∨ block = none)) ∨
    ∃ mem, block = some mem ∧ msg.fragBucketListCount < dtlsFragPoolSz ∧
      msg.insertBucket before after f block = (0, msg.extend before after f mem) := by
  unfold insertBucket
  split_ifs with hfull
  · exact .inl ⟨rfl, .inl (by simp [dtlsTooManyFragmentsE])⟩
  · cases block with
    | none => exact .inl ⟨rfl, .inr rfl⟩
    | some mem => exact .inr ⟨mem, rfl, Nat.lt_of_not_le hfull, rfl⟩

/-- What a fragment can do to the list: nothing, a new bucket apart from the others, or a
combination. -/
theorem storeFragment_cases {M : Mem β} {msg : DtlsMsg β} (hp : msg.Parts M) (f : Fragment β)
    (block : Option (Mem β)) :
    ((msg.storeFragment f block).2 = msg ∧ msg.Ignored f block) ∨
    (∃ before after mem, block = some mem ∧ msg.fragBucketList = before ++ after ∧
      (∀ b ∈ before, b.stop < f.offset) ∧ (∀ b ∈ after.head?, f.stop < b.offset) ∧
      msg.fragBucketListCount < dtlsFragPoolSz ∧
      msg.storeFragment f block = (0, msg.extend before after f mem)) ∨
    ∃ before cur rest mem, block = some mem ∧
      findPlace f.offset f.stop msg.fragBucketList = (before, cur :: rest, false) ∧
      ¬ (before = [] ∧ f.stop < cur.offset) ∧
      msg.storeFragment f block = (0, msg.combineBuckets before cur rest f mem) := by
  unfold Ignored storeFragment
  by_cases hnil : msg.fragBucketList = []
  · rw [if_pos hnil]
    cases block with
    | none => exact .inl ⟨rfl, .inr (.inl rfl)⟩
    | some mem =>
      have hbytes : msg.bytesReceived = 0 := by rw [hp.bytes, spans, hnil]; rfl
      have hcount : msg.fragBucketListCount = 0 := by rw [hp.count, hnil]; rfl
      refine .inr (.inl ⟨[], [], mem, rfl, hnil, by simp, by simp, ?_, ?_⟩)
      · rw [hcount]; decide
      · simp [extend, hbytes]
  · have happend := findPlace_append f.offset f.stop msg.fragBucketList
    have hbefore := findPlace_before f.offset f.stop msg.fragBucketList
    have hdone : (findPlace f.offset f.stop msg.fragBucketList).2.2 = true →
        ∃ b ∈ msg.fragBucketList, b.offset ≤ f.offset ∧ f.stop ≤ b.stop := findPlace_done
    rw [if_neg hnil]
    rcases hplace : findPlace f.offset f.stop msg.fragBucketList with ⟨before, place, done⟩
    rw [hplace] at happend hbefore hdone
    cases done with
    | true => exact .inl ⟨rfl, .inr (.inr (hdone rfl))⟩
    | false =>
      cases place with
      | nil =>
        rcases insertBucket_cases msg before [] f block with ⟨hsame, hwhy⟩ | ⟨mem, hb, hr, hnew⟩
        · exact .inl ⟨hsame, by tauto⟩
        · exact .inr (.inl ⟨before, [], mem, hb, happend.symm, hbefore, by simp, hr, hnew⟩)
      | cons cur rest =>
        dsimp only
        by_cases hfirst : before = [] ∧ f.stop < cur.offset
        · rw [if_pos hfirst]
          obtain ⟨rfl, hlt⟩ := hfirst
          rcases insertBucket_cases msg [] (cur :: rest) f block with
            ⟨hsame, hwhy⟩ | ⟨mem, hb, hr, hnew⟩
          · exact .inl ⟨hsame, by tauto⟩
          · exact .inr (.inl
              ⟨[], cur :: rest, mem, hb, happend.symm, by simp, by simpa using hlt, hr, hnew⟩)
        · rw [if_neg hfirst]
          cases block with
          | none => exact .inl ⟨rfl, .inr (.inl rfl)⟩
          | some mem => exact .inr (.inr ⟨before, cur, rest, mem, rfl, rfl, hfirst, rfl⟩)

variable {M : Mem β} {msg : DtlsMsg β} {f : Fragment β}

@[simp] theorem spans_extend (before after : List (FragBucket β)) (block : Mem β) :
    (msg.extend before after f block).spans =
      before.map FragBucket.span ++ f.span :: after.map FragBucket.span := by
  simp [spans, extend, FragBucket.span, FragBucket.create, Fragment.span]

theorem Parts.extend {before after : List (FragBucket β)} (hp : msg.Parts M)
    (hdata : f.data = M.read f.offset f.data.length) (hin : f.stop ≤ msg.sz)
    (hlist : msg.fragBucketList = before ++ after) (hbefore : ∀ b ∈ before, b.stop < f.offset)
    (hafter : ∀ b ∈ after.head?, f.stop < b.offset)
    (hroom : msg.fragBucketListCount < dtlsFragPoolSz) (block : Mem β) :
    (msg.extend before after f block).Parts M := by
  have hsep := hp.separated
  rw [spans, hlist, List.map_append] at hsep
  have hall : ∀ b ∈ after, f.stop < b.offset := by
    cases after with
    | nil => simp
    | cons c after =>
      have hc : f.stop < c.offset := hafter c rfl
      have hlater := (List.pairwise_cons.mp (List.pairwise_append.mp hsep).2.1).1
      rintro b (_ | ⟨_, hb⟩)
      · exact hc
      · have hb' : c.stop < b.offset := hlater b.span (List.mem_map_of_mem hb)
        have hpos : c.offset ≤ c.stop := Nat.le_add_right _ _
        omega
  constructor
  · rw [spans_extend]
    apply hsep.insert
    · simpa using hbefore
    · simpa using hall
  · intro s hs
    rw [spans_extend] at hs
    rcases List.mem_append.mp hs with hs | hs
    · exact hp.inside s (by rw [spans, hlist, List.map_append]; exact List.mem_append_left _ hs)
    · rcases List.mem_cons.mp hs with rfl | hs
      · exact hin
      · exact hp.inside s (by rw [spans, hlist, List.map_append]; exact List.mem_append_right _ hs)
  · intro b hb
    rcases List.mem_append.mp hb with hb | hb
    · exact hp.holds b (by rw [hlist]; exact List.mem_append_left _ hb)
    · rcases List.mem_cons.mp hb with rfl | hb
      · rw [hdata]
        exact FragBucket.holds_create M f.offset f.data.length block
      · exact hp.holds b (by rw [hlist]; exact List.mem_append_right _ hb)
  · have hbytes := hp.bytes
    rw [spans, hlist, List.map_append, Span.total_append] at hbytes
    rw [spans_extend, Span.total_append, Span.total_cons]
    simp only [DtlsMsg.extend, Fragment.len_span]
    omega
  · simp only [DtlsMsg.extend, hp.count, hlist, List.length_append, List.length_cons]
    omega
  · exact hroom

theorem joins_of_findPlace {before rest : List (FragBucket β)} {cur : FragBucket β}
    (hplace : findPlace f.offset f.stop msg.fragBucketList = (before, cur :: rest, false))
    (hfirst : ¬ (before = [] ∧ f.stop < cur.offset)) (hw : msg.WellPlaced f) :
    cur.Joins f.offset f.data.length := by
  obtain ⟨htouch, hnew⟩ := findPlace_place (congrArg Prod.snd hplace)
  have hcur : msg.combinedWith f = some cur := by simp [combinedWith, hplace, hfirst]
  exact ⟨htouch, by grind, hw cur hcur⟩

theorem of_combinedWith {cur : FragBucket β} (h : msg.combinedWith f = some cur) :
    ∃ before rest, findPlace f.offset f.stop msg.fragBucketList = (before, cur :: rest, false) ∧
      ¬ (before = [] ∧ f.stop < cur.offset) := by
  unfold combinedWith at h
  grind

theorem storeFragment_of_combinedWith {before rest : List (FragBucket β)} {cur : FragBucket β}
    (hplace : findPlace f.offset f.stop msg.fragBucketList = (before, cur :: rest, false))
    (hfirst : ¬ (before = [] ∧ f.stop < cur.offset)) (block : Mem β) :
    msg.storeFragment f (some block) = (0, msg.combineBuckets before cur rest f block) := by
  have hne : msg.fragBucketList ≠ [] := by
    intro hnil
    simp [hnil, findPlace] at hplace
  rw [storeFragment, if_neg hne, hplace]
  simp only [if_neg hfirst]

theorem foldl_sz (l : List (FragBucket β)) (n : Nat) :
    l.foldl (fun overlapSz b => overlapSz + b.sz) n = n + Span.total (l.map FragBucket.span) := by
  induction l generalizing n with
  | nil => rfl
  | cons b l ih =>
    rw [List.foldl_cons, ih, List.map_cons, Span.total_cons, FragBucket.len_span, Nat.add_assoc]

theorem spans_combineBuckets (before : List (FragBucket β)) (cur : FragBucket β)
    (rest : List (FragBucket β)) (block : Mem β) :
    (msg.combineBuckets before cur rest f block).spans =
      before.map FragBucket.span ++
        (cur.combine (nextBucket rest f.stop) f.offset f.data block).span ::
          (rest.drop (freed rest f.stop).length).map FragBucket.span := by
  simp [spans, combineBuckets]

theorem Parts.count_combineBuckets {before rest : List (FragBucket β)} {cur : FragBucket β}
    (hp : msg.Parts M) (hlist : msg.fragBucketList = before ++ cur :: rest) (block : Mem β) :
    (msg.combineBuckets before cur rest f block).fragBucketListCount =
      (msg.combineBuckets before cur rest f block).fragBucketList.length := by
  have hlen := congrArg List.length (freed_append_drop rest f.stop)
  have hcount := hp.count
  simp only [DtlsMsg.combineBuckets, hlist, List.length_append, List.length_cons] at hlen hcount ⊢
  omega

theorem Parts.combineBuckets {before rest : List (FragBucket β)} {cur : FragBucket β}
    (hp : msg.Parts M) (hdata : f.data = M.read f.offset f.data.length) (hin : f.stop ≤ msg.sz)
    (hlist : msg.fragBucketList = before ++ cur :: rest)
    (hbefore : ∀ b ∈ before, b.stop < f.offset) (hjoins : cur.Joins f.offset f.data.length)
    (block : Mem β) : (msg.combineBuckets before cur rest f block).Parts M := by
  have hsep := hp.separated
  have hsplit := freed_append_drop rest f.stop
  rw [spans, hlist, List.map_append] at hsep
  obtain ⟨-, hcurSep, hacross⟩ := List.pairwise_append.mp hsep
  obtain ⟨hmem, htail⟩ := combine_span block hcurSep hjoins
  have hnext : ∀ b ∈ nextBucket rest f.stop, cur.stop < b.offset :=
    fun b hb => behind_cur hcurSep b (nextBucket_mem rest f.stop b hb)
  constructor
  · rw [spans_combineBuckets]
    rw [List.map_cons, ← hsplit, List.map_append, ← List.cons_append] at hsep
    apply hsep.merge
    · intro s hs
      obtain ⟨b, hb, rfl⟩ := List.mem_map.mp hs
      have hgap : b.stop < cur.offset := hacross _ hs _ List.mem_cons_self
      have := hbefore b hb
      simp only [FragBucket.stop_span, FragBucket.start_span, FragBucket.combine_offset]
      omega
    · intro s hs
      obtain ⟨b, hb, rfl⟩ := List.mem_map.mp hs
      exact htail b hb
  · intro s hs
    rw [spans_combineBuckets] at hs
    have hin' : ∀ b ∈ msg.fragBucketList, b.stop ≤ msg.sz :=
      fun b hb => hp.inside _ (List.mem_map_of_mem hb)
    simp only [hlist, List.mem_append, List.mem_cons] at hin'
    rcases List.mem_append.mp hs with hs | hs
    · obtain ⟨b, hb, rfl⟩ := List.mem_map.mp hs
      exact hin' b (.inl hb)
    · rcases List.mem_cons.mp hs with rfl | hs
      · rw [FragBucket.stop_span, FragBucket.combine_stop _ block hjoins.touches hnext]
        cases hreach : FragBucket.reached (nextBucket rest f.stop) (f.offset + f.data.length) with
        | none => exact max_le (hin' cur (.inr (.inl rfl))) hin
        | some b =>
          have hb := nextBucket_mem rest f.stop b (FragBucket.of_reached hreach).1
          exact hin' b (.inr (.inr hb))
      · obtain ⟨b, hb, rfl⟩ := List.mem_map.mp hs
        exact hin' b (.inr (.inr (List.mem_of_mem_drop hb)))
  · have hholds := hp.holds
    simp only [hlist, List.mem_append, List.mem_cons] at hholds
    intro b hb
    rcases List.mem_append.mp hb with hb | hb
    · exact hholds b (.inl hb)
    · rcases List.mem_cons.mp hb with rfl | hb
      · rw [hdata]
        refine FragBucket.combine_holds block (hholds cur (.inr (.inl rfl))) ?_ hjoins
        intro b hb
        exact ⟨hholds b (.inr (.inr (nextBucket_mem rest f.stop b hb))), hnext b hb⟩
      · exact hholds b (.inr (.inr (List.mem_of_mem_drop hb)))
  · have hbytes := hp.bytes
    rw [spans, hlist, ← hsplit] at hbytes
    rw [spans_combineBuckets]
    simp only [DtlsMsg.combineBuckets, List.map_append, List.map_cons, Span.total_append,
      Span.total_cons, FragBucket.len_span] at hbytes ⊢
    rw [foldl_sz]
    omega
  · exact hp.count_combineBuckets hlist block
  · exact (Nat.sub_le _ _).trans hp.room

/-- What storing keeps: the buckets stay pieces of the message. -/
theorem Parts.storeFragment (hp : msg.Parts M) (hdata : f.data = M.read f.offset f.data.length)
    (hin : f.stop ≤ msg.sz) (block : Option (Mem β))
    (hw : block.isSome = true → msg.WellPlaced f) : (msg.storeFragment f block).2.Parts M := by
  rcases storeFragment_cases hp f block with ⟨hsame, -⟩ |
    ⟨before, after, mem, -, hlist, hbefore, hafter, hroom, hnew⟩ |
    ⟨before, cur, rest, mem, rfl, hplace, hfirst, hnew⟩
  · rw [hsame]
    exact hp
  · rw [hnew]
    exact hp.extend hdata hin hlist hbefore hafter hroom mem
  · have hlist := findPlace_append f.offset f.stop msg.fragBucketList
    have hbefore := findPlace_before f.offset f.stop msg.fragBucketList
    rw [hplace] at hlist hbefore
    rw [hnew]
    exact hp.combineBuckets hdata hin hlist.symm hbefore
      (joins_of_findPlace hplace hfirst (hw rfl)) mem

/-- With memory and room there is no error. -/
theorem storeFragment_fst (hroom : msg.fragBucketListCount < dtlsFragPoolSz) (block : Mem β) :
    (msg.storeFragment f (some block)).1 = 0 := by
  have hinsert : ∀ before after, (msg.insertBucket before after f (some block)).1 = 0 := by
    intro before after
    rw [insertBucket, if_neg (Nat.not_le_of_lt hroom)]
  unfold storeFragment
  split_ifs
  · rfl
  · split
    · rfl
    · exact hinsert _ _
    · split_ifs
      · exact hinsert _ _
      · rfl

/-- What storing adds: the bytes of the fragment, when it is stored. -/
theorem Parts.covers_storeFragment (hp : msg.Parts M) (hw : msg.WellPlaced f) {block : Mem β}
    (hret : (msg.storeFragment f (some block)).1 = 0) (x : Nat) :
    Span.Covers (msg.storeFragment f (some block)).2.spans x ↔
      Span.Covers msg.spans x ∨ f.span.Mem x := by
  rcases storeFragment_cases hp f (some block) with ⟨hsame, hwhy⟩ |
    ⟨before, after, mem, hmem, hlist, -, -, -, hnew⟩ |
    ⟨before, cur, rest, mem, hmem, hplace, hfirst, hnew⟩
  · rw [hsame]
    refine ⟨.inl, fun h => h.elim id fun hx => ?_⟩
    obtain ⟨b, hb, hstart, hstop⟩ := (hwhy.resolve_left (by simpa using hret)).resolve_left (by simp)
    exact ⟨b.span, List.mem_map_of_mem hb, hstart.trans hx.1, hx.2.trans_le hstop⟩
  · rw [hnew, spans_extend, spans, hlist]
    simp only [List.map_append, Span.covers_append, Span.covers_cons]
    tauto
  · have hlist := findPlace_append f.offset f.stop msg.fragBucketList
    have hsep := hp.separated
    rw [hplace] at hlist
    rw [spans, ← hlist, List.map_append] at hsep
    have hjoined := (combine_span mem (List.pairwise_append.mp hsep).2.1
      (joins_of_findPlace hplace hfirst hw)).1 x
    have hsplit : Span.Covers (rest.map FragBucket.span) x ↔
        Span.Covers ((freed rest f.stop).map FragBucket.span) x ∨
          Span.Covers ((rest.drop (freed rest f.stop).length).map FragBucket.span) x := by
      conv_lhs => rw [← freed_append_drop rest f.stop]
      simp only [List.map_append, Span.covers_append]
    rw [hnew, spans_combineBuckets, spans, ← hlist]
    simp only [List.map_append, List.map_cons, Span.covers_append, Span.covers_cons, hjoined,
      hsplit]
    tauto

/-! ## What a call keeps -/

/-- Some bytes of the message are still missing. -/
structure Collecting (M : Mem β) (msg : DtlsMsg β) : Prop extends Parts M msg where
  waiting : msg.ready = false
  unfinished : msg.fragBucketList ≠ [] → msg.bytesReceived ≠ msg.sz

/-- The message is there, behind the header of a message in one piece. -/
structure Complete (M : Mem β) (msg : DtlsMsg β) : Prop where
  ready : msg.ready = true
  full : ∃ buf, msg.fullMsg = some (⟨msg.type, msg.sz, msg.seq.toUInt16, 0, msg.sz⟩, buf) ∧
    buf.read 0 msg.sz = M.read 0 msg.sz

def Sound (M : Mem β) (msg : DtlsMsg β) : Prop := Collecting M msg ∨ Complete M msg

/-- The byte `x` of the message has come. -/
def Got (msg : DtlsMsg β) (x : Nat) : Prop := msg.ready = true ∨ Span.Covers msg.spans x

theorem sound_new (M : Mem β) (sz : Nat) : (new sz).Sound M := by
  refine .inl ⟨⟨List.Pairwise.nil, ?_, ?_, rfl, rfl, Nat.zero_le _⟩, rfl, by simp [new]⟩
  · simp [Span.Inside, spans, new]
  · simp [new]

/-- The last lines of `DtlsMsgSet`. -/
def finish (msg : DtlsMsg β) : DtlsMsg β :=
  if msg.bytesReceived = msg.sz then msg.assemble else msg

theorem Parts.finish_cases (hp : msg.Parts M) (hnil : msg.fragBucketList ≠ [])
    (hbytes : msg.bytesReceived = msg.sz) :
    ∃ b, msg.fragBucketList = [b] ∧ b.sz = msg.sz ∧ b.Holds M ∧ b.offset = 0 ∧
      msg.assemble = { msg with
        fullMsg := some (⟨msg.type, msg.sz, msg.seq.toUInt16, 0, msg.sz⟩, b.buf)
        ready := true
        fragBucketList := []
        fragBucketListCount := 0 } := by
  have hwhole : msg.spans = [⟨0, msg.sz⟩] :=
    Span.eq_whole hp.separated hp.inside (by simpa [spans] using hnil) (hp.bytes ▸ hbytes)
  obtain ⟨b, hb⟩ : ∃ b, msg.fragBucketList = [b] := by
    apply List.length_eq_one_iff.mp
    simpa [spans] using congrArg List.length hwhole
  have hspan : b.span = ⟨0, msg.sz⟩ := by simpa [spans, hb] using hwhole
  have hoffset : b.offset = 0 := congrArg Span.start hspan
  have hsz : b.sz = msg.sz := congrArg Span.len hspan
  have hcount : msg.fragBucketListCount = 1 := by rw [hp.count, hb]; rfl
  refine ⟨b, hb, hsz, hp.holds b (by simp [hb]), hoffset, ?_⟩
  simp [assemble, hb, hcount, hoffset, hsz]

theorem Parts.finish (hp : msg.Parts M) (hready : msg.ready = false) : msg.finish.Sound M := by
  unfold DtlsMsg.finish
  by_cases hnil : msg.fragBucketList = []
  · have hsame : msg.assemble = msg := by simp [assemble, hnil]
    rw [hsame, ite_self]
    exact .inl ⟨hp, hready, fun h => absurd hnil h⟩
  · split_ifs with hbytes
    · obtain ⟨b, -, hsz, hholds, hoffset, hnew⟩ := hp.finish_cases hnil hbytes
      rw [hnew]
      refine .inr ⟨rfl, b.buf, rfl, Mem.read_congr fun i hi => ?_⟩
      have := hholds i (hsz ▸ hi)
      rw [hoffset] at this
      simpa only [Nat.zero_add] using this
    · exact .inl ⟨hp, hready, fun _ => hbytes⟩

theorem Parts.got_finish (hp : msg.Parts M) {x : Nat} (hx : x < msg.sz) :
    msg.finish.Got x ↔ msg.Got x := by
  unfold DtlsMsg.finish
  by_cases hnil : msg.fragBucketList = []
  · have hsame : msg.assemble = msg := by simp [assemble, hnil]
    rw [hsame, ite_self]
  · split_ifs with hbytes
    · obtain ⟨b, -, -, -, -, hnew⟩ := hp.finish_cases hnil hbytes
      have hall := (Span.total_eq_iff hp.separated hp.inside).mp (hp.bytes ▸ hbytes)
      rw [hnew]
      exact iff_of_true (.inl rfl) (.inr (hall x hx))
    · exact Iff.rfl

@[simp] theorem list_populate (msg : DtlsMsg β) (f : Fragment β) :
    (msg.populate f).fragBucketList = msg.fragBucketList := by unfold populate; split_ifs <;> rfl

@[simp] theorem bytesReceived_populate (msg : DtlsMsg β) (f : Fragment β) :
    (msg.populate f).bytesReceived = msg.bytesReceived := by unfold populate; split_ifs <;> rfl

theorem Parts.populate (hp : msg.Parts M) (f : Fragment β) : (msg.populate f).Parts M := by
  unfold DtlsMsg.populate
  split_ifs <;> exact ⟨hp.separated, hp.inside, hp.holds, hp.bytes, hp.count, hp.room⟩

@[simp] theorem sz_populate (msg : DtlsMsg β) (f : Fragment β) : (msg.populate f).sz = msg.sz := by
  unfold populate; split_ifs <;> rfl

@[simp] theorem ready_populate (msg : DtlsMsg β) (f : Fragment β) :
    (msg.populate f).ready = msg.ready := by unfold populate; split_ifs <;> rfl

theorem wellPlaced_populate (msg : DtlsMsg β) (f : Fragment β) :
    (msg.populate f).WellPlaced f ↔ msg.WellPlaced f := by
  rw [WellPlaced, WellPlaced, combinedWith, combinedWith, list_populate]

/-- The fields by which a message is known. -/
def label (msg : DtlsMsg β) : Nat × UInt8 × UInt16 × UInt32 :=
  (msg.sz, msg.type, msg.epoch, msg.seq)

theorem Parts.frame_storeFragment (hp : msg.Parts M) (f : Fragment β) (block : Option (Mem β)) :
    (msg.storeFragment f block).2.label = msg.label ∧
      (msg.storeFragment f block).2.ready = msg.ready := by
  rcases storeFragment_cases hp f block with ⟨hsame, -⟩ |
    ⟨before, after, mem, -, -, -, -, -, hnew⟩ | ⟨before, cur, rest, mem, -, -, -, hnew⟩
  · rw [hsame]
    exact ⟨rfl, rfl⟩
  · rw [hnew]
    exact ⟨rfl, rfl⟩
  · rw [hnew]
    exact ⟨rfl, rfl⟩

theorem label_finish (msg : DtlsMsg β) : msg.finish.label = msg.label := by
  unfold finish assemble
  grind [label]

/-- The call comes to the search for a place, with memory to store the fragment. -/
structure Reaches (msg : DtlsMsg β) (f : Fragment β) (block : Option (Mem β)) : Prop where
  memory : block.isSome = true
  total : msg.sz = f.totalLen
  inside : f.stop ≤ msg.sz
  waiting : msg.ready = false
  same : msg.Matches f

/-- What `set` can do: nothing, or it stores the fragment. -/
theorem set_cases (msg : DtlsMsg β) (f : Fragment β) (block : Option (Mem β)) :
    ((msg.set f block).2 = msg ∧ ((msg.set f block).1 < 0 ∨ msg.ready = true)) ∨
    ((block.isSome = true → msg.Reaches f block) ∧ f.stop ≤ msg.sz ∧ msg.ready = false ∧
      (msg.set f block).1 = ((msg.populate f).storeFragment f block).1 ∧
      (msg.set f block).2 =
        if ((msg.populate f).storeFragment f block).1 = 0 then
          ((msg.populate f).storeFragment f block).2.finish
        else ((msg.populate f).storeFragment f block).2) := by
  by_cases hargs : msg.sz ≠ f.totalLen ∨ f.totalLen < f.stop
  · exact .inl ⟨by simp [set, hargs], .inl (by simp [set, hargs, badFuncArg])⟩
  by_cases hready : msg.ready = true
  · exact .inl (by simp [set, hargs, hready])
  by_cases hmatch : msg.Matches f
  · have hin : f.stop ≤ msg.sz := by omega
    have hwait : msg.ready = false := by simpa using hready
    refine .inr ⟨fun hmem => ⟨hmem, by omega, hin, hwait, hmatch⟩, hin, hwait, ?_⟩
    simp only [set, if_neg hargs, if_neg hready, if_neg (not_not_intro hmatch)]
    by_cases hret : ((msg.populate f).storeFragment f block).1 = 0
    · simp [hret, DtlsMsg.finish]
    · simp [hret]
  · exact .inl ⟨by simp [set, hargs, hready, hmatch],
      .inl (by simp [set, hargs, hready, hmatch, sequenceError])⟩

theorem set_of_ready (hready : msg.ready = true) (htotal : msg.sz = f.totalLen)
    (hin : f.stop ≤ msg.sz) (block : Option (Mem β)) : msg.set f block = (0, msg) := by
  have hargs : ¬ (msg.sz ≠ f.totalLen ∨ f.totalLen < f.stop) := by omega
  rw [DtlsMsg.set, if_neg hargs, if_pos hready]

theorem Reaches.set_eq {block : Option (Mem β)} (h : msg.Reaches f block)
    (hret : ((msg.populate f).storeFragment f block).1 = 0) :
    msg.set f block = (0, ((msg.populate f).storeFragment f block).2.finish) := by
  have hargs : ¬ (msg.sz ≠ f.totalLen ∨ f.totalLen < f.stop) := by
    have := h.total
    have := h.inside
    omega
  have hready : ¬ msg.ready = true := by simp [h.waiting]
  simp [DtlsMsg.set, hargs, hready, h.same, hret, DtlsMsg.finish]

theorem Sound.set (hs : msg.Sound M) (hdata : f.data = M.read f.offset f.data.length)
    {block : Option (Mem β)} (hw : msg.Reaches f block → msg.WellPlaced f) :
    (msg.set f block).2.Sound M := by
  rcases set_cases msg f block with ⟨hsame, -⟩ | ⟨hreach, hin, hready, -, hnew⟩
  · rw [hsame]
    exact hs
  · have hcollecting : Collecting M msg := by
      rcases hs with hs | hs
      · exact hs
      · simp [hs.ready] at hready
    have hp := hcollecting.toParts.populate f
    have hparts := hp.storeFragment hdata (by simpa using hin) block
      fun hmem => (wellPlaced_populate msg f).mpr (hw (hreach hmem))
    have hframe := hp.frame_storeFragment f block
    have hwait : ((msg.populate f).storeFragment f block).2.ready = false := by
      rw [hframe.2, ready_populate, hready]
    rw [hnew]
    split_ifs with hret
    · exact hparts.finish hwait
    · -- an error leaves the buckets as they were
      rcases storeFragment_cases hp f block with ⟨hsame, -⟩ | ⟨before, after, mem, -, h⟩ |
        ⟨before, cur, rest, mem, -, h⟩
      · rw [hsame]
        exact .inl ⟨hp, by simpa using hready, by simpa using hcollecting.unfinished⟩
      · exact absurd (congrArg Prod.fst h.2.2.2.2) hret
      · exact absurd (congrArg Prod.fst h.2.2) hret

/-- A fragment that gives no error leaves its own header. -/
theorem Collecting.label_set (hs : Collecting M msg) {block : Option (Mem β)}
    (hret : 0 ≤ (msg.set f block).1) : (msg.set f block).2.label = (msg.populate f).label := by
  rcases set_cases msg f block with ⟨-, hwhy⟩ | ⟨-, -, -, -, hnew⟩
  · rcases hwhy with herr | hready
    · exact absurd herr (Int32.not_lt.mpr hret)
    · simp [hs.waiting] at hready
  · have hframe := (hs.toParts.populate f).frame_storeFragment f block
    rw [hnew]
    split_ifs
    · rw [label_finish, hframe.1]
    · exact hframe.1

theorem Sound.label_set (hs : msg.Sound M) (f : Fragment β) (block : Option (Mem β)) :
    (msg.set f block).2.label = msg.label ∨ (msg.set f block).2.label = (msg.populate f).label := by
  rcases set_cases msg f block with ⟨hsame, -⟩ | ⟨-, -, hready, -, hnew⟩
  · exact .inl (by rw [hsame])
  · rcases hs with hs | hs
    · have hframe := (hs.toParts.populate f).frame_storeFragment f block
      rw [hnew]
      split_ifs
      · exact .inr (by rw [label_finish, hframe.1])
      · exact .inr hframe.1
    · simp [hs.ready] at hready

theorem Sound.sz_set (hs : msg.Sound M) (f : Fragment β) (block : Option (Mem β)) :
    (msg.set f block).2.sz = msg.sz := by
  rcases hs.label_set f block with h | h
  · exact congrArg Prod.fst h
  · exact (congrArg Prod.fst h).trans (sz_populate msg f)

/-- A fragment that is taken adds its bytes. -/
theorem Sound.got_set (hs : msg.Sound M) {block : Mem β}
    (hw : msg.Reaches f (some block) → msg.WellPlaced f)
    (hret : (msg.set f (some block)).1 = 0) {x : Nat} (hx : x < msg.sz)
    (hdata : f.data = M.read f.offset f.data.length) :
    (msg.set f (some block)).2.Got x ↔ msg.Got x ∨ f.span.Mem x := by
  rcases set_cases msg f (some block) with ⟨hsame, hwhy⟩ | ⟨hreach, hin, hready, hret', hnew⟩
  · rw [hsame]
    exact ⟨.inl, fun _ => .inl (hwhy.resolve_left (by simp [hret]))⟩
  · rcases hs with hs | hs
    · have hp := hs.toParts.populate f
      have hw' := (wellPlaced_populate msg f).mpr (hw (hreach rfl))
      have hframe := hp.frame_storeFragment f (some block)
      have hsz : ((msg.populate f).storeFragment f (some block)).2.sz = msg.sz :=
        (congrArg Prod.fst hframe.1).trans (sz_populate msg f)
      rw [hret'] at hret
      have hparts := hp.storeFragment hdata (by simpa using hin) (some block) fun _ => hw'
      rw [hnew, if_pos hret, hparts.got_finish (by rw [hsz]; exact hx), Got,
        Got, hframe.2, ready_populate, hready, hp.covers_storeFragment hw' hret x, spans,
        list_populate, or_assoc]
      rfl
    · simp [hs.ready] at hready

/-- A fragment that is taken leaves something behind. -/
def Begun (msg : DtlsMsg β) : Prop := msg.ready = true ∨ msg.fragBucketList ≠ []

/-- A message is complete exactly when all of its bytes have come. -/
theorem Sound.ready_iff (hs : msg.Sound M) :
    msg.ready = true ↔ msg.Begun ∧ ∀ x < msg.sz, msg.Got x := by
  constructor
  · exact fun h => ⟨.inl h, fun _ _ => .inl h⟩
  · rintro ⟨hbegun, hall⟩
    rcases hs with hs | hs
    · by_contra hready
      have hcovers : ∀ x < msg.sz, Span.Covers msg.spans x :=
        fun x hx => (hall x hx).resolve_left hready
      have htotal := (Span.total_eq_iff hs.separated hs.inside).mpr hcovers
      exact hs.unfinished (hbegun.resolve_left hready) (hs.bytes.trans htotal)
    · exact hs.ready

theorem Sound.begun_set (hs : msg.Sound M) {block : Mem β}
    (hw : msg.Reaches f (some block) → msg.WellPlaced f)
    (hret : (msg.set f (some block)).1 = 0) (hdata : f.data = M.read f.offset f.data.length) :
    (msg.set f (some block)).2.Begun := by
  rcases set_cases msg f (some block) with ⟨hsame, hwhy⟩ | ⟨hreach, hin, hready, hret', hnew⟩
  · rw [hsame]
    exact .inl (hwhy.resolve_left (by simp [hret]))
  · rcases hs with hs | hs
    · have hp := hs.toParts.populate f
      rw [hret'] at hret
      have hne : ((msg.populate f).storeFragment f (some block)).2.fragBucketList ≠ [] := by
        rcases storeFragment_cases hp f (some block) with ⟨hsame, hwhy⟩ |
          ⟨before, after, mem, -, -, -, -, -, h⟩ | ⟨before, cur, rest, mem, -, -, -, h⟩
        · obtain ⟨b, hb, -⟩ :=
            (hwhy.resolve_left (by simpa using hret)).resolve_left (by simp)
          rw [hsame]
          exact List.ne_nil_of_mem hb
        · simp [h, extend]
        · simp [h, combineBuckets]
      rw [hnew, if_pos hret, finish]
      split_ifs with hbytes
      · have hparts := hp.storeFragment hdata (by simpa using hin) (some block)
          fun _ => (wellPlaced_populate msg f).mpr (hw (hreach rfl))
        obtain ⟨b, -, -, -, -, hfull⟩ := hparts.finish_cases hne hbytes
        rw [hfull]
        exact .inl rfl
      · exact .inr hne
    · simp [hs.ready] at hready

end DtlsMsg
end LitexDtls.WolfSsl
