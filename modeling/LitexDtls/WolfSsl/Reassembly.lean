import LitexDtls.Library.Run
import LitexDtls.WolfSsl.Message

/-!
# Runs of fragments

Any number of calls of `DtlsMsgSet` for one message, with the fragments in any order, repeated
or lost. A run of well placed fragments never assembles anything but the message that was sent
(`run_sound`), and assembles it as soon as it can (`run_ready_iff`). When no byte of the message
occurs twice, the fragments have to be well placed (`sound_iff_fits`).

A message that is sent in at most four pieces, cut always in the same places, cannot have a
misplaced fragment (`assembles_of_few_pieces`).
-/
namespace LitexDtls.WolfSsl.DtlsMsg
open Library

variable {β : Type} {M : Mem β} {msg : DtlsMsg β} {f : Fragment β}

/-- A call of `DtlsMsgSet`: the fragment, and what the allocator has for it. -/
abbrev Arrival (β : Type) := Fragment β × Option (Mem β)

def step (msg : DtlsMsg β) (a : Arrival β) : DtlsMsg β := (msg.set a.1 a.2).2

/-- The fragment is cut from the message `M`. -/
def CutFrom (M : Mem β) (a : Arrival β) : Prop :=
  a.1.data = M.read a.1.offset a.1.data.length

/-- A fragment that comes to be stored is not one of those that go wrong. -/
def Fits (msg : DtlsMsg β) (a : Arrival β) : Prop := msg.Reaches a.1 a.2 → msg.WellPlaced a.1

def Proper (M : Mem β) (msg : DtlsMsg β) (a : Arrival β) : Prop := CutFrom M a ∧ msg.Fits a

/-- The call has memory and gives no error. -/
def Taken (msg : DtlsMsg β) (a : Arrival β) : Prop :=
  a.2.isSome = true ∧ (msg.set a.1 a.2).1 = 0

/-- Whatever becomes of the fragments of a message, in whatever order and however often they
come: a complete message is the one that was sent, and an incomplete one has only its bytes. -/
theorem run_sound (M : Mem β) (sz : Nat) (as : List (Arrival β))
    (h : Meets step (Proper M) (new sz) as) : (run step (new sz) as).Sound M :=
  Meets.invariant (fun _ _ hs hg => hs.set hg.1 hg.2) h (sound_new M sz)

/-- Two fragments of a message of three bytes, the second one first. -/
def twoFragments : List (Arrival Nat) :=
  [(⟨0, 2, 1, 1, [1, 2], 3, true⟩, some id), (⟨0, 2, 1, 0, [0], 3, true⟩, some id)]

theorem run_sound_two : (run step (new 3) twoFragments).Sound id :=
  run_sound id 3 twoFragments
    ⟨⟨rfl, fun _ => by decide⟩, ⟨rfl, fun _ => by decide⟩, trivial⟩

theorem run_taken {M : Mem β} {msg : DtlsMsg β} (as : List (Arrival β)) (hs : msg.Sound M)
    (h : Meets step (fun msg a => Proper M msg a ∧ Taken msg a) msg as) :
    (run step msg as).sz = msg.sz ∧ ((run step msg as).Begun ↔ msg.Begun ∨ as ≠ []) ∧
      ∀ x < msg.sz, ((run step msg as).Got x ↔ msg.Got x ∨ ∃ a ∈ as, a.1.span.Mem x) := by
  induction as generalizing msg with
  | nil => simp
  | cons a as ih =>
    obtain ⟨⟨⟨hdata, hw⟩, hmem, hret⟩, hrest⟩ := h
    obtain ⟨f, block⟩ := a
    obtain ⟨mem, rfl⟩ := Option.isSome_iff_exists.mp hmem
    have hs' : (step msg (f, some mem)).Sound M := hs.set hdata hw
    obtain ⟨hsz, hbegun, hgot⟩ := ih hs' hrest
    have hsz' : (step msg (f, some mem)).sz = msg.sz := hs.sz_set f (some mem)
    rw [run_cons]
    refine ⟨hsz.trans hsz', ?_, fun x hx => ?_⟩
    · rw [hbegun]
      exact iff_of_true (.inl (hs.begun_set hw hret hdata)) (.inr (List.cons_ne_nil _ _))
    · rw [hgot x (hsz'.symm ▸ hx), step, hs.got_set hw hret hx hdata]
      simp only [List.mem_cons, exists_eq_or_imp, or_assoc]

/-- A message is ready after a run that is taken when its bytes were there or have come. -/
theorem Sound.ready_run (hs : msg.Sound M) {as : List (Arrival β)}
    (h : Meets step (fun msg a => Proper M msg a ∧ Taken msg a) msg as) :
    (run step msg as).ready = true ↔
      (msg.Begun ∨ as ≠ []) ∧ ∀ x < msg.sz, msg.Got x ∨ ∃ a ∈ as, a.1.span.Mem x := by
  obtain ⟨hsz, hbegun, hgot⟩ := run_taken as hs h
  have hsound : (run step msg as).Sound M :=
    Meets.invariant (fun _ _ hs hg => hs.set hg.1.1 hg.1.2) h hs
  rw [hsound.ready_iff, hbegun, hsz]
  exact and_congr_right fun _ => forall₂_congr hgot

@[simp] theorem sz_new (sz : Nat) : (new sz : DtlsMsg β).sz = sz := rfl
@[simp] theorem not_begun_new (sz : Nat) : ¬ (new sz : DtlsMsg β).Begun := by simp [Begun, new]
@[simp] theorem not_got_new (sz x : Nat) : ¬ (new sz : DtlsMsg β).Got x := by
  simp [Got, new, spans]

/-- When every call is taken, the message is complete as soon as every byte has come, and not
before. -/
theorem run_ready_iff (M : Mem β) (sz : Nat) (as : List (Arrival β))
    (h : Meets step (fun msg a => Proper M msg a ∧ Taken msg a) (new sz) as) :
    (run step (new sz) as).ready = true ↔
      as ≠ [] ∧ ∀ x < sz, ∃ a ∈ as, a.1.span.Mem x := by
  rw [(sound_new M sz).ready_run h]
  simp only [not_begun_new, not_got_new, false_or, sz_new]

theorem run_ready_iff_two : (run step (new 3) twoFragments).ready = true ↔
    twoFragments ≠ [] ∧ ∀ x < 3, ∃ a ∈ twoFragments, a.1.span.Mem x :=
  run_ready_iff id 3 twoFragments
    ⟨⟨⟨rfl, fun _ => by decide⟩, rfl, by decide⟩, ⟨⟨rfl, fun _ => by decide⟩, rfl, by decide⟩, trivial⟩

/-! ## Misplaced fragments -/

/-- A call with some bytes of the message `M`. -/
abbrev Cut (M : Mem β) := {a : Arrival β // CutFrom M a ∧ a.1.data ≠ []}

def stepCut (msg : DtlsMsg β) (a : Cut M) : DtlsMsg β := msg.step a.val

/-- No bucket is empty. -/
def Filled (msg : DtlsMsg β) : Prop := ∀ b ∈ msg.fragBucketList, 0 < b.sz

theorem Parts.filled_storeFragment (hp : msg.Parts M) (hfill : msg.Filled)
    (hne : f.data ≠ []) (block : Option (Mem β)) (hw : block.isSome = true → msg.WellPlaced f) :
    (msg.storeFragment f block).2.Filled := by
  have hnew (mem : Mem β) : 0 < (FragBucket.create f.offset f.data mem).sz :=
    List.length_pos_of_ne_nil hne
  rcases storeFragment_cases hp f block with ⟨hsame, -⟩ |
    ⟨before, after, mem, -, hlist, -, -, -, h⟩ | ⟨before, cur, rest, mem, rfl, hplace, hfirst, h⟩
  · rw [hsame]
    exact hfill
  · simp only [Filled, h, DtlsMsg.extend, hlist, List.mem_append, List.mem_cons] at hfill ⊢
    rintro b (hb | rfl | hb)
    · exact hfill b (.inl hb)
    · exact hnew mem
    · exact hfill b (.inr hb)
  · have hlist := findPlace_append f.offset f.stop msg.fragBucketList
    have hsep := hp.separated
    rw [hplace] at hlist
    rw [spans, ← hlist, List.map_append] at hsep
    have hjoins := joins_of_findPlace hplace hfirst (hw rfl)
    have hmem := (combine_span mem (List.pairwise_append.mp hsep).2.1 hjoins).1 cur.offset
    simp only [Filled, h, DtlsMsg.combineBuckets, ← hlist, List.mem_append, List.mem_cons]
      at hfill ⊢
    rintro b (hb | rfl | hb)
    · exact hfill b (.inl hb)
    · -- the new bucket has the first byte of the old one
      have hcur := hfill cur (.inr (.inl rfl))
      have hin := hmem.mpr (.inl ⟨le_refl _, Nat.lt_add_of_pos_right hcur⟩)
      unfold Span.Mem Span.stop at hin
      simp only [FragBucket.start_span, FragBucket.len_span] at hin
      omega
    · exact hfill b (.inr (.inr (List.mem_of_mem_drop hb)))

theorem list_finish_subset (msg : DtlsMsg β) :
    msg.finish.fragBucketList ⊆ msg.fragBucketList := by
  unfold finish assemble
  grind

theorem Filled.finish (hfill : msg.Filled) : msg.finish.Filled :=
  fun b hb => hfill b (list_finish_subset msg hb)

theorem Sound.filled_set (hs : msg.Sound M) (hfill : msg.Filled) {a : Arrival β}
    (hne : a.1.data ≠ []) (hfits : msg.Fits a) : (msg.step a).Filled := by
  unfold step
  rcases set_cases msg a.1 a.2 with ⟨hsame, -⟩ | ⟨hreach, -, hready, -, hnew⟩
  · rw [hsame]
    exact hfill
  · rcases hs with hs | hs
    · have hfill' : (msg.populate a.1).Filled := by simpa [Filled] using hfill
      have := (hs.toParts.populate a.1).filled_storeFragment hfill' hne a.2
        fun hmem => (wellPlaced_populate msg a.1).mpr (hfits (hreach hmem))
      rw [hnew]
      split_ifs
      · exact this.finish
      · exact this
    · simp [hs.ready] at hready

/-- A bucket that is wrong in a message that is sound otherwise stays wrong. -/
theorem not_sound_finish (before : List (FragBucket β)) {after : List (FragBucket β)}
    {b : FragBucket β} (hlist : msg.fragBucketList = before ++ b :: after)
    (hcount : msg.fragBucketListCount = msg.fragBucketList.length) (hready : msg.ready = false)
    (hb : ¬ b.Holds M) : ¬ msg.finish.Sound M := by
  have hself : ¬ msg.Sound M := by
    rintro (hs | hs)
    · exact hb (hs.holds b (by simp [hlist]))
    · simp [hs.ready] at hready
  unfold DtlsMsg.finish assemble
  split_ifs
  · split
    · exact hself
    · rename_i c rest hcons
      split_ifs with hbroken
      · exact hself
      · -- the wrong bucket is the only one, and it is taken for the message
        simp only [not_or, not_not] at hbroken
        obtain ⟨hone, hoffset, hsz⟩ := hbroken
        obtain rfl : b = c := by
          have hlen := hcount.symm.trans hone
          rw [hcons] at hlist hlen
          have hrest : rest = [] := by simpa using hlen
          cases before with
          | nil => simpa using (List.cons.inj hlist).1.symm
          | cons d before => simp [hrest] at hlist
        rintro (hs | hs)
        · exact absurd hs.waiting (by simp)
        · obtain ⟨buf, hfull, hread⟩ := hs.full
          simp only [Option.some.injEq, Prod.mk.injEq] at hfull
          obtain ⟨-, rfl⟩ := hfull
          refine hb fun i hi => ?_
          have hi' : i < msg.sz := by omega
          have := congrArg (·[i]?) hread
          simpa [Mem.getElem?_read, hi', hoffset] using this
  · exact hself

/-- A misplaced fragment that is stored leaves the message wrong, when its bytes are all
different. -/
theorem Collecting.not_sound_set (hs : Collecting M msg) (hfill : msg.Filled) {a : Arrival β}
    (hM : Set.InjOn M (Set.Iio msg.sz)) (hcut : CutFrom M a) (hreach : msg.Reaches a.1 a.2)
    (hw : ¬ msg.WellPlaced a.1) : ¬ (msg.step a).Sound M := by
  obtain ⟨f, block⟩ := a
  obtain ⟨mem, rfl⟩ := Option.isSome_iff_exists.mp hreach.memory
  simp only [WellPlaced, not_forall, not_or, not_le] at hw
  obtain ⟨cur, hcur, hfront, hend, hlt⟩ := hw
  obtain ⟨before, rest, hplace, hfirst⟩ := of_combinedWith hcur
  have hp := hs.toParts.populate f
  have hplace' : findPlace f.offset f.stop (msg.populate f).fragBucketList =
      (before, cur :: rest, false) := by rw [list_populate, hplace]
  have hstore := storeFragment_of_combinedWith hplace' hfirst mem
  have hlist := findPlace_append f.offset f.stop msg.fragBucketList
  rw [hplace] at hlist
  have hsep := hs.separated
  rw [spans, ← hlist, List.map_append] at hsep
  have hnext : ∀ b ∈ nextBucket rest f.stop, cur.stop < b.offset := fun b hb =>
    behind_cur (List.pairwise_append.mp hsep).2.1 b (nextBucket_mem rest f.stop b hb)
  have hmem : cur ∈ msg.fragBucketList := by simp [← hlist]
  have hstep : msg.step (f, some mem) =
      ((msg.populate f).combineBuckets before cur rest f mem).finish := by
    rw [step, hreach.set_eq (by rw [hstore]), hstore]
  have hwrong : (cur.combine (nextBucket rest f.stop) f.offset
      (M.read f.offset f.data.length) mem).buf f.data.length = M cur.offset :=
    FragBucket.combine_misplaced mem (hs.holds cur hmem) (hfill cur hmem) hnext hfront hlt
  rw [hstep]
  refine not_sound_finish before rfl
    (hp.count_combineBuckets (by rw [list_populate, hlist]) mem) ?_ fun hholds => ?_
  · simpa [DtlsMsg.combineBuckets] using hs.waiting
  · have hoffset : min cur.offset f.offset = f.offset := by omega
    have hsz : f.data.length <
        (cur.combine (nextBucket rest f.stop) f.offset f.data mem).sz := by
      have hle := FragBucket.stop_le_combine f.data mem
        (findPlace_place (congrArg Prod.snd hplace)).1 hnext
      rw [FragBucket.stop.eq_def (FragBucket.combine _ _ _ _ _), FragBucket.combine_offset,
        hoffset] at hle
      have hlt' : f.offset + f.data.length < cur.stop := hlt
      omega
    have hright := hholds f.data.length hsz
    rw [FragBucket.combine_offset, hoffset, hcut, Mem.length_read] at hright
    -- the byte behind the fragment is the first one of the bucket
    have hinside : cur.stop ≤ msg.sz := by
      simpa using hs.inside cur.span (List.mem_map_of_mem hmem)
    have hstart := hfill cur hmem
    refine hend (hM (Set.mem_Iio.mpr ?_) (Set.mem_Iio.mpr ?_) (hright.symm.trans hwrong))
    · have hlt' : f.offset + f.data.length < cur.stop := hlt
      omega
    · unfold FragBucket.stop at hinside
      omega

/-- The fragments of a message whose bytes are all different: every state of a run is right if
and only if no fragment is misplaced when it is stored. -/
theorem sound_iff_fits (M : Mem β) (sz : Nat) (hM : Set.InjOn M (Set.Iio sz))
    (as : List (Cut M)) :
    (∀ bs, bs <+: as → (run stepCut (new sz) bs).Sound M) ↔
      Meets stepCut (fun msg a => msg.Fits a.val) (new sz) as := by
  apply forall_prefix_iff_meets (I := fun msg => msg.Sound M ∧ msg.Filled ∧ msg.sz = sz)
  · exact fun msg h => h.1
  · exact fun msg a h hfits =>
      ⟨h.1.set a.property.1 hfits, h.1.filled_set h.2.1 a.property.2 hfits,
        (h.1.sz_set a.val.1 a.val.2).trans h.2.2⟩
  · intro msg a h hnext hreach
    by_contra hw
    rcases h.1 with hs | hs
    · exact hs.not_sound_set h.2.1 (by rwa [h.2.2]) a.property.1 hreach hw hnext
    · exact absurd hreach.waiting (by simp [hs.ready])
  · exact ⟨sound_new M sz, by simp [Filled, new], rfl⟩

/-- The fragment with the byte `x` of a message of three bytes. -/
def oneByte (x : Nat) : Cut (UInt8.ofNat : Mem UInt8) :=
  ⟨(⟨0, 2, 1, x, [UInt8.ofNat x], 3, true⟩, some fun _ => 0), rfl, List.cons_ne_nil _ _⟩

theorem sound_iff_fits_three :
    (∀ bs, bs <+: [oneByte 2, oneByte 0, oneByte 1] →
        (run stepCut (new 3) bs).Sound (UInt8.ofNat : Mem UInt8)) ↔
      Meets stepCut (fun msg a => msg.Fits a.val) (new 3)
        [oneByte 2, oneByte 0, oneByte 1] := by
  refine sound_iff_fits UInt8.ofNat 3 (fun i hi j hj h => ?_) _
  simp only [Set.mem_Iio] at hi hj
  have hmod := congrArg UInt8.toNat h
  simp only [UInt8.toNat_ofNat'] at hmod
  omega

/-! ## Messages of few pieces -/

/-- A message of `sz` bytes cut into `k` pieces. -/
structure Pieces (k sz : Nat) where
  cut : Nat → Nat
  first : cut 0 = 0
  last : cut k = sz
  grows : ∀ i < k, cut i < cut (i + 1)

namespace Pieces
variable {k sz : Nat} (p : Pieces k sz)

theorem cut_lt {i j : Nat} (hij : i < j) (hj : j ≤ k) : p.cut i < p.cut j := by
  induction j, hij using Nat.le_induction with
  | base => exact p.grows i (by omega)
  | succ j hij ih => exact (ih (by omega)).trans (p.grows j (by omega))

theorem cut_le {i j : Nat} (hij : i ≤ j) (hj : j ≤ k) : p.cut i ≤ p.cut j := by
  rcases Nat.lt_or_eq_of_le hij with h | rfl
  · exact (p.cut_lt h hj).le
  · exact le_rfl

theorem lt_of_cut_lt {i j : Nat} (hi : i ≤ k) (h : p.cut i < p.cut j) : i < j := by
  by_contra hle
  rcases (Nat.le_of_not_lt hle).lt_or_eq with hlt | rfl
  · exact absurd (p.cut_lt hlt hi) (by omega)
  · omega

/-- Piece `i` of the message `M`, as a fragment with a given header. -/
def fragment (M : Mem β) (seq : UInt32) (epoch : UInt16) (type : UInt8) (encrypted : Bool)
    (i : Nat) : Fragment β :=
  ⟨seq, epoch, type, p.cut i, M.read (p.cut i) (p.cut (i + 1) - p.cut i), sz, encrypted⟩

/-- The bucket begins and ends at cuts. -/
def Aligned (b : FragBucket β) : Prop :=
  ∃ i j, i < j ∧ j ≤ k ∧ b.offset = p.cut i ∧ b.stop = p.cut j

variable (M) (seq : UInt32) (epoch : UInt16) (type : UInt8) (encrypted : Bool) {i : Nat}

theorem length_fragment (i : Nat) :
    (p.fragment M seq epoch type encrypted i).data.length = p.cut (i + 1) - p.cut i :=
  Mem.length_read M _ _

theorem stop_fragment (hi : i < k) :
    (p.fragment M seq epoch type encrypted i).stop = p.cut (i + 1) := by
  rw [Fragment.stop, length_fragment]
  exact Nat.add_sub_cancel' (p.grows i hi).le

/-- With four pieces there is no room for one between two buckets that reaches neither. -/
theorem wellPlaced_fragment (hk : k ≤ 4) (hi : i < k)
    (hal : ∀ b ∈ msg.fragBucketList, p.Aligned b) :
    msg.WellPlaced (p.fragment M seq epoch type encrypted i) := by
  intro cur hcur
  obtain ⟨before, rest, hplace, hfirst⟩ := of_combinedWith hcur
  have hlist := findPlace_append (p.fragment M seq epoch type encrypted i).offset
    (p.fragment M seq epoch type encrypted i).stop msg.fragBucketList
  have hbefore := findPlace_before (p.fragment M seq epoch type encrypted i).offset
    (p.fragment M seq epoch type encrypted i).stop msg.fragBucketList
  rw [hplace] at hlist hbefore
  simp only [p.stop_fragment M seq epoch type encrypted hi] at hfirst ⊢
  obtain ⟨a, b, hab, hb, hstart, hstop⟩ := hal cur (by simp [← hlist])
  change cur.offset ≤ p.cut i ∨ p.cut (i + 1) = cur.offset ∨ cur.stop ≤ p.cut (i + 1)
  by_cases hfront : cur.offset ≤ p.cut i
  · exact .inl hfront
  · refine .inr (.inl ?_)
    have hia : i < a := p.lt_of_cut_lt hi.le (by omega)
    by_contra hne
    have hia' : i + 1 < a := by
      rcases Nat.lt_or_eq_of_le hia with h | h
      · exact h
      · exact absurd (hstart.trans (congrArg p.cut h.symm)).symm hne
    have hlt : p.cut (i + 1) < cur.offset := hstart ▸ p.cut_lt hia' (by omega)
    -- so there is a bucket before, and behind it a piece that has not come
    obtain ⟨b', hb'⟩ := List.exists_mem_of_ne_nil before fun h => hfirst ⟨h, hlt⟩
    obtain ⟨c, d, hcd, hd, -, hstop'⟩ := hal b' (by simp [← hlist, hb'])
    have hgap : p.cut d < p.cut i := hstop' ▸ hbefore b' hb'
    have hdi : d < i := p.lt_of_cut_lt hd hgap
    omega

variable {M} in
theorem exists_cut_stop {cur : FragBucket β} {next : Option (FragBucket β)} {c : Nat}
    {offsetEnd stop : Nat} (hc : c ≤ k) (hend : cur.stop = p.cut c) (hi : i < k)
    (hstop : offsetEnd = p.cut (i + 1))
    (h : stop = ((FragBucket.reached next offsetEnd).map FragBucket.stop).getD
      (max cur.stop offsetEnd)) (hnext : ∀ b ∈ next, p.Aligned b) :
    ∃ c' ≤ k, stop = p.cut c' := by
  cases hreach : FragBucket.reached next offsetEnd with
  | none =>
    rw [hreach, hend, hstop] at h
    rcases Nat.le_total (p.cut c) (p.cut (i + 1)) with hle | hle
    · exact ⟨i + 1, hi, h.trans (max_eq_right hle)⟩
    · exact ⟨c, hc, h.trans (max_eq_left hle)⟩
  | some b =>
    obtain ⟨a, d, -, hd, -, hstop'⟩ := hnext b (FragBucket.of_reached hreach).1
    exact ⟨d, hd, by rw [h, hreach]; exact hstop'⟩

theorem aligned_storeFragment (hp : msg.Parts M)
    (hw : msg.WellPlaced (p.fragment M seq epoch type encrypted i)) (hi : i < k)
    (hal : ∀ b ∈ msg.fragBucketList, p.Aligned b) (block : Option (Mem β)) :
    ∀ b ∈ (msg.storeFragment (p.fragment M seq epoch type encrypted i) block).2.fragBucketList,
      p.Aligned b := by
  have hstop := p.stop_fragment M seq epoch type encrypted hi
  rcases storeFragment_cases hp (p.fragment M seq epoch type encrypted i) block with
    ⟨hsame, -⟩ | ⟨before, after, mem, -, hlist, -, -, -, hnew⟩ |
    ⟨before, cur, rest, mem, -, hplace, hfirst, hnew⟩
  · rw [hsame]
    exact hal
  · rw [hlist] at hal
    simp only [hnew, DtlsMsg.extend, List.mem_append, List.mem_cons] at hal ⊢
    rintro b (hb | rfl | hb)
    · exact hal b (.inl hb)
    · exact ⟨i, i + 1, by omega, by omega, rfl, hstop⟩
    · exact hal b (.inr hb)
  · have hlist := findPlace_append (p.fragment M seq epoch type encrypted i).offset
      (p.fragment M seq epoch type encrypted i).stop msg.fragBucketList
    have hsep := hp.separated
    rw [hplace] at hlist
    rw [spans, ← hlist, List.map_append] at hsep
    have hnext := fun b hb => behind_cur (List.pairwise_append.mp hsep).2.1 b
      (nextBucket_mem rest (p.fragment M seq epoch type encrypted i).stop b hb)
    have hjoins := joins_of_findPlace hplace hfirst hw
    rw [← hlist] at hal
    simp only [hnew, DtlsMsg.combineBuckets, List.mem_append, List.mem_cons] at hal ⊢
    rintro b (hb | rfl | hb)
    · exact hal b (.inl hb)
    · obtain ⟨a, c, hac, hc, hstart, hend⟩ := hal cur (.inr (.inl rfl))
      obtain ⟨a', ha', hstart'⟩ : ∃ a' ≤ k, min cur.offset (p.cut i) = p.cut a' := by
        rcases Nat.le_total cur.offset (p.cut i) with h | h
        · exact ⟨a, by omega, by rw [Nat.min_eq_left h, hstart]⟩
        · exact ⟨i, hi.le, Nat.min_eq_right h⟩
      have hle := FragBucket.stop_le_combine (p.fragment M seq epoch type encrypted i).data mem
        hjoins.touches hnext
      obtain ⟨c', hc', hend'⟩ := p.exists_cut_stop hc hend hi hstop
        (FragBucket.combine_stop (p.fragment M seq epoch type encrypted i).data mem
          hjoins.touches hnext)
        fun b hb => hal b (.inr (.inr (nextBucket_mem rest _ b hb)))
      have hpos : cur.offset < cur.stop := by rw [hstart, hend]; exact p.cut_lt hac hc
      have hmin : p.cut a' < p.cut c' := by
        rw [← hstart', ← hend']
        omega
      exact ⟨a', c', p.lt_of_cut_lt ha' hmin, hc',
        (FragBucket.combine_offset _ _ _ _ _).trans hstart', hend'⟩
    · exact hal b (.inr (.inr (List.mem_of_mem_drop hb)))

/-- There are never more buckets than pieces. -/
theorem length_le (hsep : Span.Separated msg.spans) (hal : ∀ b ∈ msg.fragBucketList, p.Aligned b) :
    msg.fragBucketList.length ≤ k := by
  have hsorted : (msg.fragBucketList.map (·.offset)).Pairwise (· < ·) := by
    rw [spans, Span.Separated, List.pairwise_map] at hsep
    rw [List.pairwise_map]
    exact hsep.imp fun h => (Nat.le_add_right _ _).trans_lt h
  have hsub : msg.fragBucketList.map (·.offset) ⊆ (List.range k).map p.cut := by
    intro x hx
    obtain ⟨b, hb, rfl⟩ := List.mem_map.mp hx
    obtain ⟨i, j, hij, hj, hstart, -⟩ := hal b hb
    exact List.mem_map.mpr ⟨i, List.mem_range.mpr (by omega), hstart.symm⟩
  have hnodup : (msg.fragBucketList.map (·.offset)).Nodup := hsorted.imp fun h => h.ne
  simpa using (List.subperm_of_subset hnodup hsub).length_le

/-- What the pieces of one message keep, when there are few of them. -/
structure Good (msg : DtlsMsg β) : Prop where
  sound : msg.Sound M
  size : msg.sz = sz
  aligned : ∀ b ∈ msg.fragBucketList, p.Aligned b
  label : msg.type = noShake ∨ msg.type = type ∧ msg.epoch = epoch ∧ msg.seq = seq

/-- Piece `i` comes, with the memory `mem` for it. -/
abbrev arrival (i : Fin k) (mem : Mem β) : Arrival β :=
  (p.fragment M seq epoch type encrypted i, some mem)

theorem cutFrom_arrival (i : Fin k) (mem : Mem β) :
    CutFrom M (p.arrival M seq epoch type encrypted i mem) := by
  rw [CutFrom, p.length_fragment]
  rfl

variable {M p seq epoch type}

theorem Good.set (hg : p.Good M seq epoch type msg) (hk : k ≤ 4) (i : Fin k) (mem : Mem β) :
    p.Good M seq epoch type (msg.step (p.arrival M seq epoch type encrypted i mem)) := by
  have hw := p.wellPlaced_fragment M seq epoch type encrypted hk i.isLt hg.aligned
  refine ⟨hg.sound.set (p.cutFrom_arrival M seq epoch type encrypted i mem) fun _ => hw,
    (hg.sound.sz_set _ _).trans hg.size, ?_, ?_⟩
  · unfold step
    rcases set_cases msg (p.fragment M seq epoch type encrypted i) (some mem) with
      ⟨hsame, -⟩ | ⟨-, -, hready, -, hnew⟩
    · rw [hsame]
      exact hg.aligned
    · rcases hg.sound with hs | hs
      · have hal := p.aligned_storeFragment M seq epoch type encrypted (hs.toParts.populate _)
          ((wellPlaced_populate _ _).mpr hw) i.isLt (by simpa using hg.aligned) (some mem)
        rw [hnew]
        split_ifs
        · intro b hb
          exact hal b (list_finish_subset _ hb)
        · exact hal
      · simp [hs.ready] at hready
  · have hsame : ∀ m : DtlsMsg β, m.label = msg.label →
        m.type = noShake ∨ m.type = type ∧ m.epoch = epoch ∧ m.seq = seq := by
      intro m hm
      simp only [DtlsMsg.label, Prod.mk.injEq] at hm
      rw [hm.2.1, hm.2.2.1, hm.2.2.2]
      exact hg.label
    rcases hg.sound.label_set (p.fragment M seq epoch type encrypted i) (some mem) with h | h
    · exact hsame _ h
    · by_cases hnew : msg.type = noShake
      · rw [populate, if_pos hnew] at h
        simp only [DtlsMsg.label, Prod.mk.injEq] at h
        exact .inr h.2
      · rw [populate, if_neg hnew] at h
        exact hsame _ h

theorem Good.taken (hg : p.Good M seq epoch type msg) (hk : k ≤ 4) (i : Fin k) (mem : Mem β) :
    msg.Taken (p.arrival M seq epoch type encrypted i mem) := by
  refine ⟨rfl, ?_⟩
  have hstop : (p.fragment M seq epoch type encrypted i).stop ≤ msg.sz := by
    rw [p.stop_fragment M seq epoch type encrypted i.isLt, hg.size]
    exact (p.cut_le i.isLt le_rfl).trans_eq p.last
  rcases hg.sound with hs | hs
  · have hcount : (msg.populate (p.fragment M seq epoch type encrypted i)).fragBucketListCount <
        dtlsFragPoolSz := by
      rw [(hs.toParts.populate _).count, list_populate]
      exact (p.length_le hs.separated hg.aligned).trans_lt (hk.trans_lt (by decide))
    have hreach : msg.Reaches (p.fragment M seq epoch type encrypted i) (some mem) :=
      ⟨rfl, hg.size, hstop, hs.waiting, hg.label⟩
    exact congrArg Prod.fst (hreach.set_eq (storeFragment_fst hcount mem))
  · exact congrArg Prod.fst (set_of_ready hs.ready hg.size hstop (some mem))

variable (p) in
theorem exists_piece {x : Nat} (hx : x < sz) : ∃ i : Fin k, p.cut i ≤ x ∧ x < p.cut (i + 1) := by
  have hall : ∀ n ≤ k, x < p.cut n → ∃ i < n, p.cut i ≤ x ∧ x < p.cut (i + 1) := by
    intro n hn hxn
    induction n with
    | zero => simp [p.first] at hxn
    | succ n ih =>
      by_cases hxn' : x < p.cut n
      · obtain ⟨i, hi, h⟩ := ih (by omega) hxn'
        exact ⟨i, by omega, h⟩
      · exact ⟨n, by omega, by omega, hxn⟩
  obtain ⟨i, hi, h⟩ := hall k le_rfl (by rw [p.last]; exact hx)
  exact ⟨⟨i, hi⟩, h⟩

variable (M p seq epoch type) in
/-- All bytes have come when all pieces have. -/
theorem covered_iff (as : List (Fin k × Mem β)) :
    (∀ x < sz, ∃ e ∈ as.map fun a => p.arrival M seq epoch type encrypted a.1 a.2,
      e.1.span.Mem x) ↔ ∀ i : Fin k, ∃ a ∈ as, a.1 = i := by
  have hmem (i : Fin k) (x : Nat) : (p.fragment M seq epoch type encrypted i).span.Mem x ↔
      p.cut i ≤ x ∧ x < p.cut (i + 1) := by
    rw [Span.Mem, Fragment.stop_span, p.stop_fragment M seq epoch type encrypted i.isLt]
    rfl
  simp only [List.mem_map, exists_exists_and_eq_and, hmem]
  constructor
  · intro h i
    have hx : p.cut i < sz := (p.cut_lt i.isLt le_rfl).trans_eq p.last
    obtain ⟨a, ha, hle, hlt⟩ := h _ hx
    have hi : (i : Nat) < a.1 + 1 := p.lt_of_cut_lt i.isLt.le hlt
    have ha' : (a.1 : Nat) < i + 1 :=
      p.lt_of_cut_lt a.1.isLt.le (hle.trans_lt (p.grows i i.isLt))
    exact ⟨a, ha, Fin.ext (by omega)⟩
  · intro h x hx
    obtain ⟨i, hi⟩ := p.exists_piece hx
    obtain ⟨a, ha, rfl⟩ := h i
    exact ⟨a, ha, hi⟩

section Arrivals

variable {k sz : Nat} (p : Pieces k sz) (hk : k ≤ 4) (M : Mem β) (seq : UInt32) (epoch : UInt16)
  (type : UInt8) (encrypted : Bool) (as : List (Fin k × Mem β))
include hk

/-- Every piece is taken, and none is misplaced. -/
theorem taken_arrivals : Meets step (fun msg a => Proper M msg a ∧ msg.Taken a) (new sz)
    (as.map fun a => p.arrival M seq epoch type encrypted a.1 a.2) := by
  have hgood : p.Good M seq epoch type (new sz : DtlsMsg β) :=
    ⟨sound_new M sz, rfl, by simp [new], .inl rfl⟩
  refine Meets.of_invariant (I := p.Good M seq epoch type) ?_ ?_ hgood
  · rintro s e he hs
    obtain ⟨a, -, rfl⟩ := List.mem_map.mp he
    exact hs.set encrypted hk a.1 a.2
  · rintro s e he hs
    obtain ⟨a, -, rfl⟩ := List.mem_map.mp he
    exact ⟨⟨p.cutFrom_arrival M seq epoch type encrypted a.1 a.2,
      fun _ => p.wellPlaced_fragment M seq epoch type encrypted hk a.1.isLt hs.aligned⟩,
      hs.taken encrypted hk a.1 a.2⟩

theorem sound_arrivals : (run step (new sz)
    (as.map fun a => p.arrival M seq epoch type encrypted a.1 a.2)).Sound M :=
  Meets.invariant (fun _ _ hs hg => hs.set hg.1.1 hg.1.2)
    (p.taken_arrivals hk M seq epoch type encrypted as) (sound_new M sz)

theorem ready_arrivals : (run step (new sz)
    (as.map fun a => p.arrival M seq epoch type encrypted a.1 a.2)).ready = true ↔
      as ≠ [] ∧ ∀ i : Fin k, ∃ a ∈ as, a.1 = i := by
  rw [(sound_new M sz).ready_run (p.taken_arrivals hk M seq epoch type encrypted as)]
  simp only [not_begun_new, not_got_new, false_or, sz_new,
    p.covered_iff M seq epoch type encrypted, ne_eq, List.map_eq_nil_iff]

end Arrivals

end Pieces

/-- A message of at most four pieces is put together whatever the order in which the pieces
come and however often: right, and as soon as every piece has come. -/
theorem assembles_of_few_pieces {k sz : Nat} (p : Pieces k sz) (hk : k ≤ 4) (M : Mem β)
    (seq : UInt32) (epoch : UInt16) (type : UInt8) (encrypted : Bool)
    (as : List (Fin k × Mem β)) :
    let msg := run step (new sz)
      (as.map fun a => p.arrival M seq epoch type encrypted a.1 a.2)
    msg.Sound M ∧ (msg.ready = true ↔ as ≠ [] ∧ ∀ i : Fin k, ∃ a ∈ as, a.1 = i) :=
  ⟨p.sound_arrivals hk M seq epoch type encrypted as,
    p.ready_arrivals hk M seq epoch type encrypted as⟩

/-- A message of three bytes in two pieces. -/
def twoPieces : Pieces 2 3 := ⟨fun i => [0, 1, 3].getD i 3, rfl, rfl, by decide⟩

theorem assembles_of_two_pieces :
    let as : List (Fin 2 × Mem Nat) := [(1, id), (0, id)]
    let msg := run step (new 3) (as.map fun a => twoPieces.arrival id 0 2 1 true a.1 a.2)
    msg.Sound id ∧ (msg.ready = true ↔ as ≠ [] ∧ ∀ i : Fin 2, ∃ a ∈ as, a.1 = i) :=
  assembles_of_few_pieces twoPieces (by decide) id 0 2 1 true [(1, id), (0, id)]

end LitexDtls.WolfSsl.DtlsMsg
