import LitexDtls.Client.Send
import LitexDtls.Library.Run
import LitexDtls.Library.SlotRing

/-!
# Who owns a transmit slot

The client and the MAC share the transmit slots. `dtls_io_send` copies its payload into the
current slot and only then waits for the MAC (`call`); the read of the ready register that
ends the wait starts the frame and moves on to the next slot (`start`), or the wait comes to its
bound and the frame is given up (`giveUp`). The MAC keeps started commands in a FIFO, reads slot
memory at any moment until a frame has left (`fetch`, `leave`) and reports ready while the FIFO is
not full. A call for a peer without an address copies its payload, too, before it fails.

With `n` slots the current slot is free as long as fewer than `n` commands are in flight. The
code looks at the ready register only after it has written, so a slot changes hands too early
exactly when a call begins while the FIFO is full.
-/
namespace LitexDtls.Client
open Library LiteEth

variable {γ : Type}

instance (ctx : Option DtlsNetCtx) (sz : Int32) (s : UdpState γ) :
    Decidable (Refused ctx sz s) := inferInstanceAs (Decidable (_ ∨ _))

/-- A started frame in the FIFO of the MAC, the payload of the call that started it, and the
bytes that the MAC has read so far. -/
structure Command where
  frame : TxFrame
  owner : List UInt8
  fetched : Nat → Option UInt8

/-- A frame on the wire. -/
structure Departure where
  owner : List UInt8
  bytes : List UInt8
  deriving DecidableEq, Repr

/-- Client and MAC. `waiting` is the payload of a call in the wait loop of `send_packet`,
`sends` are the payloads of all calls so far, and `overwritten` records that a call has
written into the slot of a command in the FIFO. -/
structure System (γ : Type) where
  udp : UdpState γ
  waiting : Option (List UInt8)
  fifo : List Command
  wire : List Departure
  sends : List (List UInt8)
  overwritten : Bool

inductive TxEvent where
  | call (ctx : Option DtlsNetCtx) (buf : Mem UInt8) (sz : Int32)
  | start
  | giveUp
  | fetch (k i : Nat)
  | leave

/-- Address of a byte of a command's slot. -/
def Command.addr (c : Command) : Nat := slotAddr (ethmacRxSlots + c.frame.slot)

/-- The MAC reads byte `i` of the slot. -/
def Command.fetch (c : Command) (m : Mem UInt8) (i : Nat) : Command :=
  { c with fetched := fun j => if j = i then some (m (c.addr + i)) else c.fetched j }

/-- The frame on the wire; bytes that were not read before are read now. -/
def Command.departure (c : Command) (m : Mem UInt8) : Departure :=
  ⟨c.owner, (List.range c.frame.length).map fun i => (c.fetched i).getD (m (c.addr + i))⟩

/-- The slot still holds the started frame, and what the MAC has read of it is right. -/
structure Command.Sound (c : Command) (m : Mem UInt8) : Prop where
  fits : c.frame.length ≤ ethmacSlotSize
  payload : udpPayload c.frame.bytes = c.owner
  bytes : m.read c.addr c.frame.length = c.frame.bytes
  fetched : ∀ i b, c.fetched i = some b → i < c.frame.length → c.frame.bytes[i]? = some b

/-- A write to another slot is harmless. -/
theorem Command.Sound.of_other_slot {c : Command} {m m' : Mem UInt8} {slot : Nat}
    (h : c.Sound m) (hne : c.frame.slot ≠ slot)
    (same : ∀ x, x < slotAddr (ethmacRxSlots + slot) ∨
      slotAddr (ethmacRxSlots + slot) + ethmacSlotSize ≤ x → m' x = m x) : c.Sound m' := by
  refine ⟨h.fits, h.payload, ?_, h.fetched⟩
  rw [← h.bytes]
  have hfits : c.frame.length ≤ 2048 := h.fits
  apply Mem.read_congr
  intro i hi
  apply same
  simp only [Command.addr, slotAddr, ethmacSlotSize, ethmacRxSlots]
  omega

theorem Command.Sound.getElem? {c : Command} {m : Mem UInt8} (h : c.Sound m) {i : Nat}
    (hi : i < c.frame.length) : c.frame.bytes[i]? = some (m (c.addr + i)) := by
  rw [← h.bytes]
  exact Mem.getElem?_read m c.addr hi

theorem Command.Sound.fetch {c : Command} {m : Mem UInt8} (h : c.Sound m) (i : Nat) :
    (c.fetch m i).Sound m := by
  refine ⟨h.fits, h.payload, h.bytes, fun j b hj hlt => ?_⟩
  by_cases hji : j = i
  · subst hji
    have hb : m (c.addr + j) = b := by simpa [Command.fetch] using hj
    exact hb ▸ h.getElem? hlt
  · exact h.fetched j b (by simpa [Command.fetch, hji] using hj) hlt

/-- A sound command leaves as the frame that was started. -/
theorem Command.Sound.departure {c : Command} {m : Mem UInt8} (h : c.Sound m) :
    (c.departure m).bytes = c.frame.bytes := by
  rw [← h.bytes]
  apply List.map_congr_left
  intro i hi
  have hlt := List.mem_range.mp hi
  cases hf : c.fetched i with
  | none => rfl
  | some b =>
    have hb := (h.getElem? hlt).symm.trans (h.fetched i b hf hlt)
    exact (Option.some.inj hb).symm

theorem map_modify {α β : Type} {f : α → α} {g : α → β} (h : ∀ x, g (f x) = g x) (l : List α)
    (k : Nat) : (l.modify k f).map g = l.map g := by
  induction l generalizing k with
  | nil => simp
  | cons x l ih => cases k <;> simp [h, ih]

theorem mem_modify {α : Type} {f : α → α} {l : List α} {k : Nat} {x : α}
    (h : x ∈ l.modify k f) : x ∈ l ∨ ∃ y ∈ l, x = f y := by
  induction l generalizing k with
  | nil => simp at h
  | cons y l ih =>
    cases k with
    | zero => grind [List.modify_zero_cons]
    | succ k => grind [List.modify_succ_cons]

namespace System

/-- `ethmac_sram_reader_ready`. -/
def ready (s : System γ) : Bool := s.fifo.length < ethmacTxSlots

/-- The slot when `dtls_io_send` comes to the wait loop of `send_packet`. -/
def fillSlot (net : DtlsNetCtx) (buf : Mem UInt8) (sz : Int32) (s : UdpState γ) : UdpState γ :=
  udpSendFill dtlsClientPort net.peerPort sz.toInt.toNat (copied buf sz s)

/-- `dtls_io_send` up to the wait loop of `send_packet`, or to the end when it does not come to
that. -/
def call (ctx : Option DtlsNetCtx) (buf : Mem UInt8) (sz : Int32) (s : System γ) : System γ :=
  match ctx with
  | none => s
  | some net =>
    if s.waiting.isSome ∨ sz ≤ 0 ∨ sz.toInt > dtlsMaxRx then s
    else
      let s := { s with
        overwritten := s.overwritten || s.fifo.any fun c => c.frame.slot == s.udp.txslot }
      if s.udp.cachedMac.isZero then { s with udp := copied buf sz s.udp }
      else { s with
        udp := fillSlot net buf sz s.udp
        waiting := some (buf.read 0 sz.toInt.toNat)
        sends := s.sends ++ [buf.read 0 sz.toInt.toNat] }

/-- The wait loop reads the ready register once. -/
def start (s : System γ) : System γ :=
  match s.waiting with
  | none => s
  | some payload =>
    if s.ready then { s with
      udp := startWrite s.udp
      waiting := none
      fifo := s.fifo ++ [⟨⟨s.udp.txslot, s.udp.txlen, s.udp.mem.read s.udp.txbuffer s.udp.txlen⟩,
        payload, fun _ => none⟩] }
    else s

/-- The wait loop ends without the MAC having become ready. -/
def giveUp (s : System γ) : System γ := if s.ready then s else { s with waiting := none }

def fetch (k i : Nat) (s : System γ) : System γ :=
  { s with fifo := s.fifo.modify k fun c => c.fetch s.udp.mem i }

def leave (s : System γ) : System γ :=
  match s.fifo with
  | [] => s
  | c :: rest => { s with fifo := rest, wire := s.wire ++ [c.departure s.udp.mem] }

def step (s : System γ) : TxEvent → System γ
  | .call ctx buf sz => s.call ctx buf sz
  | .start => s.start
  | .giveUp => s.giveUp
  | .fetch k i => s.fetch k i
  | .leave => s.leave

/-- The system before the first call, with an empty FIFO. -/
def init (s : UdpState γ) : System γ := ⟨s, none, [], [], [], false⟩

/-! ## The current slot and the slots in flight -/

/-- The `k`-th frame is next, and the commands in the FIFO are the frames before it. -/
def SlotsAt (k : Nat) (s : System γ) : Prop :=
  s.udp.txslot = k % ethmacTxSlots ∧ s.fifo.length ≤ k ∧ s.fifo.length ≤ ethmacTxSlots ∧
    s.fifo.map (fun c => c.frame.slot) = window ethmacTxSlots k s.fifo.length

def Slots (s : System γ) : Prop := ∃ k, s.SlotsAt k

/-- The current slot is in flight exactly when the FIFO is full. -/
theorem Slots.any_iff {s : System γ} (h : s.Slots) :
    (s.fifo.any fun c => c.frame.slot == s.udp.txslot) = true ↔ s.ready = false := by
  obtain ⟨k, hslot, hk, hlen, hmap⟩ := h
  have hmem : (s.fifo.any fun c => c.frame.slot == s.udp.txslot) = true ↔
      k % ethmacTxSlots ∈ s.fifo.map (fun c => c.frame.slot) := by
    simp [hslot]
  rw [hmem, hmap, window.mem_iff (by simp) hlen hk]
  simp only [ready, decide_eq_false_iff_not]
  omega

/-- A call that neither meets a waiting one nor is refused. -/
def Takes (ctx : Option DtlsNetCtx) (sz : Int32) (s : System γ) : Prop :=
  s.waiting = none ∧ ¬ Refused ctx sz s.udp

theorem call_of_takes {ctx : Option DtlsNetCtx} {sz : Int32} {s : System γ}
    (h : Takes ctx sz s) (buf : Mem UInt8) : ∃ net, ctx = some net ∧
      s.call ctx buf sz = { s with
        udp := fillSlot net buf sz s.udp
        waiting := some (buf.read 0 sz.toInt.toNat)
        sends := s.sends ++ [buf.read 0 sz.toInt.toNat]
        overwritten := s.overwritten || s.fifo.any fun c => c.frame.slot == s.udp.txslot } := by
  obtain ⟨hwait, hrefused⟩ := h
  cases ctx with
  | none => exact absurd (.inl rfl) hrefused
  | some net =>
    simp only [Refused, not_or] at hrefused
    exact ⟨net, rfl, by simp [call, hwait, hrefused.2.1, hrefused.2.2.1, hrefused.2.2.2]⟩

/-- Any other call does nothing, but that without the address of the peer its payload is
copied. -/
theorem call_of_not_takes {ctx : Option DtlsNetCtx} {sz : Int32} {s : System γ}
    (h : ¬ Takes ctx sz s) (buf : Mem UInt8) : s.call ctx buf sz = s ∨
      s.udp.cachedMac.isZero = true ∧ s.call ctx buf sz = { s with
        udp := copied buf sz s.udp
        overwritten := s.overwritten || s.fifo.any fun c => c.frame.slot == s.udp.txslot } := by
  cases ctx with
  | none => exact .inl rfl
  | some net =>
    unfold call
    dsimp only
    split_ifs with hc hmac
    · exact .inl rfl
    · exact .inr ⟨hmac, rfl⟩
    · simp only [not_or] at hc
      exact absurd ⟨by simpa using hc.1, by simp [Refused, hc.2.1, hc.2.2, hmac]⟩ h

theorem call_udp (ctx : Option DtlsNetCtx) (buf : Mem UInt8) (sz : Int32) (s : System γ) :
    (s.call ctx buf sz).udp.txslot = s.udp.txslot ∧ (s.call ctx buf sz).fifo = s.fifo := by
  by_cases h : Takes ctx sz s
  · obtain ⟨net, _, hcall⟩ := call_of_takes h buf
    rw [hcall]
    exact ⟨rfl, rfl⟩
  · rcases call_of_not_takes h buf with hcall | ⟨_, hcall⟩ <;> rw [hcall] <;> exact ⟨rfl, rfl⟩

theorem Slots.step {s : System γ} (h : s.Slots) (e : TxEvent) : (s.step e).Slots := by
  obtain ⟨k, hslot, hk, hlen, hmap⟩ := id h
  cases e with
  | call ctx buf sz =>
    obtain ⟨udp, fifo⟩ := call_udp ctx buf sz s
    exact ⟨k, by simp only [System.step, udp, hslot], by simpa only [System.step, fifo],
      by simpa only [System.step, fifo], by simpa only [System.step, fifo]⟩
  | start =>
    unfold System.step System.start
    dsimp only
    split
    · exact h
    · split_ifs with hr
      · have hlt : s.fifo.length < 2 := of_decide_eq_true hr
        refine ⟨k + 1, ?_, by simp; omega, by simp; omega, ?_⟩
        · simp [startWrite, hslot]
        · simp only [List.map_append, List.map_cons, List.map_nil, hmap, List.length_append,
            List.length_singleton, hslot]
          exact (window.push _ hk).symm
      · exact h
  | giveUp =>
    unfold System.step System.giveUp
    dsimp only
    split_ifs
    · exact h
    · exact ⟨k, hslot, hk, hlen, hmap⟩
  | fetch j i =>
    refine ⟨k, hslot, by simpa [System.step, fetch], by simpa [System.step, fetch], ?_⟩
    have same : (s.fifo.modify j fun c => c.fetch s.udp.mem i).map (fun c => c.frame.slot) =
        s.fifo.map fun c => c.frame.slot :=
      map_modify (f := fun c : Command => c.fetch s.udp.mem i) (fun _ => rfl) _ _
    simpa [System.step, fetch, same] using hmap
  | leave =>
    unfold System.step System.leave
    dsimp only
    split
    · exact h
    · rename_i c rest hf
      rw [hf] at hk hlen hmap
      rw [List.length_cons, window.pop _ hk] at hmap
      exact ⟨k, hslot, by simp at hk ⊢; omega, by simp at hlen ⊢; omega, (List.cons.inj hmap).2⟩

theorem slots_init {s : UdpState γ} (h : s.txslot < ethmacTxSlots) : (init s).Slots :=
  ⟨s.txslot, (Nat.mod_eq_of_lt h).symm, Nat.zero_le _, Nat.zero_le _, rfl⟩

/-- Without the address of the peer nothing waits and nothing is in flight. -/
def Quiet (s : System γ) : Prop :=
  s.udp.cachedMac.isZero = true → s.waiting = none ∧ s.fifo = []

theorem Quiet.step {s : System γ} (h : s.Quiet) (e : TxEvent) : (s.step e).Quiet := by
  cases e with
  | call ctx buf sz =>
    change (s.call ctx buf sz).Quiet
    by_cases ht : Takes ctx sz s
    · obtain ⟨net, rfl, hcall⟩ := call_of_takes ht buf
      rw [hcall]
      exact fun hmac => absurd (.inr (.inr (.inr hmac))) ht.2
    · rcases call_of_not_takes ht buf with hcall | ⟨_, hcall⟩ <;> rw [hcall] <;> exact h
  | start =>
    unfold System.step System.start
    dsimp only
    split <;> rename_i hwait
    · exact h
    · split_ifs
      · exact fun hmac => absurd ((h hmac).1.symm.trans hwait) (by simp)
      · exact h
  | giveUp =>
    unfold System.step System.giveUp
    dsimp only
    split_ifs
    · exact h
    · exact fun hmac => ⟨rfl, (h hmac).2⟩
  | fetch k i => exact fun hmac => ⟨(h hmac).1, by simp [System.step, fetch, (h hmac).2]⟩
  | leave =>
    unfold System.step System.leave
    dsimp only
    split <;> rename_i hfifo
    · exact h
    · exact fun hmac => absurd ((h hmac).2.symm.trans hfifo) (by simp)

/-! ## What is in the slots -/

/-- The payload of a waiting call lies in the current slot. -/
def WaitsWith (s : System γ) (payload : List UInt8) : Prop :=
  s.udp.txlen ≤ ethmacSlotSize ∧ udpPayload (s.udp.mem.read s.udp.txbuffer s.udp.txlen) = payload

/-- Every frame that is under way or has left carries the payload of its own call, and the
calls are served in order. -/
structure Clean (s : System γ) : Prop where
  slots : s.Slots
  quiet : s.Quiet
  begun : s.waiting ≠ none → s.ready = true
  waiting : ∀ payload, s.waiting = some payload → s.WaitsWith payload
  fifo : ∀ c ∈ s.fifo, c.Sound s.udp.mem
  wire : ∀ d ∈ s.wire, udpPayload d.bytes = d.owner
  order : s.wire.map Departure.owner ++ s.fifo.map Command.owner ++ s.waiting.toList = s.sends

theorem fillSlot_waits (net : DtlsNetCtx) (buf : Mem UInt8) {sz : Int32} {s : UdpState γ}
    (h : ¬ Refused (some net) sz s) :
    (fillSlot net buf sz s).txlen ≤ ethmacSlotSize ∧
      udpPayload ((fillSlot net buf sz s).mem.read s.txbuffer (fillSlot net buf sz s).txlen) =
        buf.read 0 sz.toInt.toNat := by
  have hmax : sz.toInt ≤ 1600 := by
    simp only [Refused, not_or] at h
    exact Int.not_lt.mp h.2.2.1
  constructor
  · simp only [fillSlot, udpSendFill, sizeofEthernetHeader, sizeofUdpFrame, arpPacketLength,
      ethmacSlotSize]
    omega
  · have hle : sz.toInt.toNat + sizeofUdpHeader < 65536 := by
      rw [sizeofUdpHeader]
      omega
    refine (udpTxFrame_payload dtlsClientPort net.peerPort _ (copied buf sz s) hle).trans ?_
    exact Mem.read_write_of_length _ _ _ (by simp)

/-- A call writes nothing outside the current slot. -/
theorem fillSlot_outside (net : DtlsNetCtx) (buf : Mem UInt8) {sz : Int32} {s : UdpState γ}
    (h : ¬ Refused (some net) sz s) {x : Nat}
    (hx : x < s.txbuffer ∨ s.txbuffer + ethmacSlotSize ≤ x) :
    (fillSlot net buf sz s).mem x = s.mem x := by
  have hmax : sz.toInt ≤ 1600 := by
    simp only [Refused, not_or] at h
    exact Int.not_lt.mp h.2.2.1
  have hx' : x < s.txbuffer ∨ s.txbuffer + 2048 ≤ x := hx
  have hbuf : (copied buf sz s).txbuffer = s.txbuffer := rfl
  unfold fillSlot
  rw [udpSendFill_outside]
  · refine Mem.write_outside _ _ _ ?_
    simp only [Mem.length_read, udpGetTxBuffer, offPayload]
    omega
  · simp only [hbuf, offPayload]
    omega

/-! ## The guard -/

/-- A call begins while the FIFO is not full. -/
def Guard (s : System γ) : TxEvent → Prop
  | .call ctx _ sz => Takes ctx sz s → s.ready = true
  | _ => True

theorem step_overwritten {s : System γ} (h : s.Slots) (hquiet : s.Quiet) (e : TxEvent) :
    (s.step e).overwritten = false ↔ s.overwritten = false ∧ Guard s e := by
  cases e with
  | call ctx buf sz =>
    change (s.call ctx buf sz).overwritten = false ↔ _ ∧ (Takes ctx sz s → _)
    by_cases ht : Takes ctx sz s
    · obtain ⟨net, _, hcall⟩ := call_of_takes ht buf
      have hany := h.any_iff
      rw [hcall]
      simp only [Bool.or_eq_false_iff, ht, true_imp_iff]
      rw [← Bool.not_eq_true (s.fifo.any _), hany, Bool.not_eq_false]
    · rcases call_of_not_takes ht buf with hcall | ⟨hmac, hcall⟩ <;> rw [hcall]
      · simp [ht]
      · simp [ht, (hquiet hmac).2]
  | giveUp =>
    simp only [Guard, and_true]
    unfold System.step System.giveUp
    dsimp only
    split_ifs <;> rfl
  | start =>
    simp only [Guard, and_true]
    unfold System.step System.start
    dsimp only
    split
    · rfl
    · split_ifs <;> rfl
  | fetch k i => simp [Guard, System.step, fetch]
  | leave =>
    simp only [Guard, and_true]
    unfold System.step System.leave
    dsimp only
    split <;> rfl

theorem Clean.call {s : System γ} (h : s.Clean) {ctx : Option DtlsNetCtx} {sz : Int32}
    (buf : Mem UInt8) (hg : Takes ctx sz s → s.ready = true) : (s.call ctx buf sz).Clean := by
  have slots : (s.call ctx buf sz).Slots := h.slots.step (.call ctx buf sz)
  have quiet : (s.call ctx buf sz).Quiet := h.quiet.step (.call ctx buf sz)
  by_cases ht : Takes ctx sz s
  · obtain ⟨net, rfl, hcall⟩ := call_of_takes ht buf
    rw [hcall] at slots quiet ⊢
    obtain ⟨hfits, hpayload⟩ := fillSlot_waits net buf ht.2
    refine ⟨slots, quiet, fun _ => hg ht, ?_, ?_, h.wire, ?_⟩
    · intro payload hp
      rw [← Option.some.inj hp]
      exact ⟨hfits, hpayload⟩
    · intro c hc
      have hother : c.frame.slot ≠ s.udp.txslot := by
        intro heq
        have hany : (s.fifo.any fun c => c.frame.slot == s.udp.txslot) = true :=
          List.any_eq_true.mpr ⟨c, hc, by simpa using heq⟩
        have hfull := h.slots.any_iff.mp hany
        rw [hg ht] at hfull
        cases hfull
      exact (h.fifo c hc).of_other_slot hother fun x hx => fillSlot_outside net buf ht.2 hx
    · rw [← h.order, ht.1]
      simp
  · rcases call_of_not_takes ht buf with hcall | ⟨hmac, hcall⟩ <;> rw [hcall] at slots quiet ⊢
    · exact h
    · -- the copy goes into a slot, but none is in flight
      obtain ⟨hwait, hfifo⟩ := h.quiet hmac
      refine ⟨slots, quiet, fun hne => absurd hwait hne, ?_, ?_, h.wire, h.order⟩
      · intro payload hp
        exact absurd (hwait.symm.trans hp) (by simp)
      · intro c hc
        rw [hfifo] at hc
        cases hc

theorem Clean.start {s : System γ} (h : s.Clean) : s.start.Clean := by
  have ring : s.start.Slots ∧ s.start.Quiet := ⟨h.slots.step .start, h.quiet.step .start⟩
  unfold System.start at ring ⊢
  split at ring <;> rename_i hwait
  · exact h
  · rename_i payload
    split_ifs at ring with hr
    · obtain ⟨hfits, hpayload⟩ := h.waiting payload hwait
      rw [if_pos hr]
      refine ⟨ring.1, ring.2, fun hne => absurd rfl hne, fun _ hp => (by cases hp), ?_, h.wire, ?_⟩
      · intro c hc
        rcases List.mem_append.mp hc with hc | hc
        · exact h.fifo c hc
        · rw [List.mem_singleton.mp hc]
          exact ⟨hfits, hpayload, rfl, fun _ _ hf => (by cases hf)⟩
      · rw [← h.order, hwait]
        simp
    · rw [if_neg hr]
      exact h

/-- A call that began with the MAC ready is not given up. -/
theorem Clean.giveUp {s : System γ} (h : s.Clean) : s.giveUp.Clean := by
  unfold System.giveUp
  split_ifs with hr
  · exact h
  · have hwait : s.waiting = none := by
      by_contra hne
      exact hr (h.begun hne)
    have same : { s with waiting := none } = s := by rw [← hwait]
    rwa [same]

theorem Clean.fetch {s : System γ} (h : s.Clean) (k i : Nat) : (s.fetch k i).Clean := by
  refine ⟨h.slots.step (.fetch k i), h.quiet.step (.fetch k i), fun hne => ?_, h.waiting, ?_,
    h.wire, ?_⟩
  · have hlt := of_decide_eq_true (h.begun hne)
    exact decide_eq_true (by simpa [System.fetch] using hlt)
  · intro c hc
    rcases mem_modify hc with hc | ⟨d, hd, rfl⟩
    · exact h.fifo c hc
    · exact (h.fifo d hd).fetch i
  · have owners := map_modify (f := fun c : Command => c.fetch s.udp.mem i)
      (g := Command.owner) (fun _ => rfl) s.fifo k
    simpa [System.fetch, owners] using h.order

theorem Clean.leave {s : System γ} (h : s.Clean) : s.leave.Clean := by
  have ring : s.leave.Slots ∧ s.leave.Quiet := ⟨h.slots.step .leave, h.quiet.step .leave⟩
  unfold System.leave at ring ⊢
  split at ring <;> rename_i hfifo
  · exact h
  · rename_i c rest
    have hc := h.fifo c (by rw [hfifo]; exact List.mem_cons_self)
    refine ⟨ring.1, ring.2, fun hne => ?_, h.waiting, ?_, ?_, ?_⟩
    · have hlt := of_decide_eq_true (h.begun hne)
      rw [hfifo] at hlt
      exact decide_eq_true (Nat.lt_of_succ_lt hlt)
    · intro d hd
      exact h.fifo d (by rw [hfifo]; exact List.mem_cons_of_mem c hd)
    · intro d hd
      rcases List.mem_append.mp hd with hd | hd
      · exact h.wire d hd
      · rw [List.mem_singleton.mp hd, hc.departure]
        exact hc.payload
    · rw [← h.order, hfifo]
      simp [Command.departure]

theorem Clean.step {s : System γ} (h : s.Clean) {e : TxEvent} (hg : Guard s e) :
    (s.step e).Clean := by
  cases e with
  | call ctx buf sz => exact h.call buf hg
  | start => exact h.start
  | giveUp => exact h.giveUp
  | fetch k i => exact h.fetch k i
  | leave => exact h.leave

theorem clean_init {s : UdpState γ} (h : s.txslot < ethmacTxSlots) : (init s).Clean :=
  ⟨slots_init h, fun _ => ⟨rfl, rfl⟩, fun hne => absurd rfl hne, fun _ hp => (by cases hp),
    fun _ hc => (by cases hc), fun _ hd => (by cases hd), rfl⟩

/-! ## The calls of the callback -/

/-- The MAC at work during a wait. -/
def Passive : TxEvent → Prop
  | .fetch _ _ => True
  | .leave => True
  | _ => False

theorem step_passive {e : TxEvent} (h : Passive e) (s : System γ) :
    (s.step e).udp = s.udp ∧ (s.step e).waiting = s.waiting := by
  cases e with
  | fetch k i => exact ⟨rfl, rfl⟩
  | leave =>
    unfold System.step System.leave
    dsimp only
    split <;> exact ⟨rfl, rfl⟩
  | call => exact h.elim
  | start => exact h.elim
  | giveUp => exact h.elim

theorem run_passive {between : List TxEvent} (h : ∀ e ∈ between, Passive e) (s : System γ) :
    (run step s between).udp = s.udp ∧ (run step s between).waiting = s.waiting := by
  induction between generalizing s with
  | nil => exact ⟨rfl, rfl⟩
  | cons e es ih =>
    obtain ⟨hudp, hwait⟩ := step_passive (h e List.mem_cons_self) s
    obtain ⟨hudp', hwait'⟩ := ih (fun e he => h e (List.mem_cons_of_mem _ he)) (s.step e)
    exact ⟨hudp'.trans hudp, hwait'.trans hwait⟩

variable {ctx : Option DtlsNetCtx} {buf : Mem UInt8} {sz : Int32} {s : System γ}
  {ready : Nat → Bool}

/-- When the MAC becomes ready in time, `dtls_io_send` is a `call` and, after what the MAC does
meanwhile, a `start`. -/
theorem dtlsIoSend_eq_call_start (ht : Takes ctx sz s) {between : List TxEvent}
    (hpassive : ∀ e ∈ between, Passive e)
    (hr : (run step (s.call ctx buf sz) between).ready = true) (h : ReadyInTime ready s.udp) :
    ∃ reads, (dtlsIoSend ready ctx buf sz s.udp).2 =
      { (run step (s.call ctx buf sz) between).start.udp with readyReads := reads } := by
  obtain ⟨net, rfl, hcall⟩ := call_of_takes ht buf
  obtain ⟨net', hnet, _, _, hmac, hsend⟩ := dtlsIoSend_of_not_refused ready ht.2 buf
  cases Option.some.inj hnet
  obtain ⟨hudp, hwait⟩ := run_passive hpassive (s.call (some net) buf sz)
  have h' : ReadyInTime ready (fillSlot net buf sz s.udp) := h
  have hfilled := hudp.trans (congrArg System.udp hcall)
  have hwaits := hwait.trans (congrArg System.waiting hcall)
  have hstart : (run step (s.call (some net) buf sz) between).start.udp =
      startWrite (fillSlot net buf sz s.udp) := by
    simp only [System.start, hwaits, hr, if_true, hfilled]
  refine ⟨(waitReady ready txWaitLoops (fillSlot net buf sz s.udp).readyReads).1, ?_⟩
  rw [hsend, hstart, udpSend, if_neg (by simpa [copied] using hmac)]
  exact sendPacket_of_ready ready h'

/-- When the MAC does not become ready in time, it is a `call` that is given up. -/
theorem dtlsIoSend_eq_call_giveUp (ht : Takes ctx sz s) {between : List TxEvent}
    (hpassive : ∀ e ∈ between, Passive e) (h : ¬ ReadyInTime ready s.udp) :
    ∃ reads, (dtlsIoSend ready ctx buf sz s.udp).2 =
      { (run step (s.call ctx buf sz) between).giveUp.udp with readyReads := reads } := by
  obtain ⟨net, rfl, hcall⟩ := call_of_takes ht buf
  obtain ⟨net', hnet, _, _, hmac, hsend⟩ := dtlsIoSend_of_not_refused ready ht.2 buf
  cases Option.some.inj hnet
  have h' : ¬ ReadyInTime ready (fillSlot net buf sz s.udp) := h
  have hgiveUp (t : System γ) : t.giveUp.udp = t.udp := by
    unfold System.giveUp
    split_ifs <;> rfl
  refine ⟨(waitReady ready txWaitLoops (fillSlot net buf sz s.udp).readyReads).1, ?_⟩
  rw [hsend, hgiveUp, (run_passive hpassive _).1, hcall, udpSend,
    if_neg (by simpa [copied] using hmac)]
  exact sendPacket_of_not_ready ready h'

/-- A request that is refused is a `call` by itself. -/
theorem dtlsIoSend_eq_call (hwait : s.waiting = none) (h : Refused ctx sz s.udp) :
    (dtlsIoSend ready ctx buf sz s.udp).2 = (s.call ctx buf sz).udp := by
  cases ctx with
  | none => rfl
  | some net =>
    unfold dtlsIoSend call
    dsimp only
    by_cases hsz : sz ≤ 0 ∨ sz.toInt > dtlsMaxRx
    · rw [if_pos hsz, if_pos (.inr hsz)]
    · have hmac : s.udp.cachedMac.isZero = true := by
        rcases h with h | h | h | h
        · cases h
        · exact absurd (.inl h) hsz
        · exact absurd (.inr h) hsz
        · exact h
      rw [if_neg hsz, udpSend_of_no_mac ready (by exact hmac), if_neg (by simpa [hwait] using hsz),
        if_pos hmac]
      rfl

/-! ## The result -/

/-- No call writes into the slot of a frame that has not left, and the frames on the wire
carry the payloads of their calls in the order of the calls, exactly when every call begins
while the FIFO is not full. -/
theorem owned_iff {s : UdpState γ} (h : s.txslot < ethmacTxSlots) (events : List TxEvent) :
    ((run step (init s) events).overwritten = false ∧
        (run step (init s) events).wire.map (fun d => udpPayload d.bytes) <+:
          (run step (init s) events).sends) ↔
      Meets step Guard (init s) events := by
  have owned := run_iff_meets (I := fun t : System γ => t.Slots ∧ t.Quiet)
    (Q := fun t : System γ => t.overwritten = false)
    (fun _ e hs => ⟨Slots.step hs.1 e, Quiet.step hs.2 e⟩)
    (fun _ e hs => step_overwritten hs.1 hs.2 e) events ⟨slots_init h, fun _ => ⟨rfl, rfl⟩⟩ rfl
  refine ⟨fun hq => owned.mp hq.1, fun hm => ⟨owned.mpr hm, ?_⟩⟩
  have clean := hm.invariant (fun _ _ hc hg => Clean.step hc hg) (clean_init h)
  have owners : (run step (init s) events).wire.map (fun d => udpPayload d.bytes) =
      (run step (init s) events).wire.map Departure.owner :=
    List.map_congr_left fun d hd => clean.wire d hd
  rw [owners, ← clean.order, List.append_assoc]
  exact List.prefix_append _ _

/-- Two one-byte sends of 1 and 2, each of which has left before the next begins. -/
theorem owned_iff_resolved :
    ((run step (init resolvedState) [.call (some net) (fun _ => 1) 1, .start, .leave,
          .call (some net) (fun _ => 2) 1, .start, .leave]).overwritten = false ∧
        (run step (init resolvedState) [.call (some net) (fun _ => 1) 1, .start, .leave,
          .call (some net) (fun _ => 2) 1, .start, .leave]).wire.map
            (fun d => udpPayload d.bytes) <+:
          (run step (init resolvedState) [.call (some net) (fun _ => 1) 1, .start, .leave,
            .call (some net) (fun _ => 2) 1, .start, .leave]).sends) ↔
      Meets step Guard (init resolvedState) [.call (some net) (fun _ => 1) 1, .start, .leave,
        .call (some net) (fun _ => 2) 1, .start, .leave] :=
  owned_iff (by decide) _

/-- Three back-to-back sends, of which the last begins while the first two are in flight. -/
def backToBack : List TxEvent :=
  [.call (some net) (fun _ => 1) 1, .start, .call (some net) (fun _ => 2) 1, .start,
    .call (some net) (fun _ => 3) 1, .leave]

/-- The first frame leaves with the payload of the third call. -/
theorem overwritten_when_full :
    ¬ ∀ (s : UdpState RxState) (events : List TxEvent), s.txslot < ethmacTxSlots →
      (run step (init s) events).overwritten = false ∧
        (run step (init s) events).wire.map (fun d => udpPayload d.bytes) <+:
          (run step (init s) events).sends := by
  intro h
  have hwire : (run step (init resolvedState) backToBack).wire.map
      (fun d => udpPayload d.bytes) = [[3]] := by decide +kernel
  have hsends : (run step (init resolvedState) backToBack).sends = [[1], [2], [3]] := by
    decide +kernel
  have owned := (h resolvedState backToBack (by decide)).2
  rw [hwire, hsends] at owned
  exact absurd owned (by decide)

end System

end LitexDtls.Client
