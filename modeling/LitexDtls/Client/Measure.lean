import Mathlib.Algebra.Ring.Nat
import LitexDtls.Client.Demo

/-!
# The client's measurements

What `run_dtls13_demo` and `main` report about the handshake and the data exchange, against
what really passed. `rdcycle` gives the low 32 bits of the cycle counter on this target, and
`cycle_count` returns them in a 64 bit variable: the difference of two readings is taken modulo
`2 ^ 64`, so a counter that wraps in between adds `2 ^ 64 - 2 ^ 32` cycles. The last division
scales bits per millisecond by 1000 and prints the result as kbit/s.
-/
namespace LitexDtls.Client

/-- `cycle_count` when the cycle counter stands at `t`. -/
def cycleCount (t : Nat) : UInt64 := (UInt32.ofNat t).toUInt64

/-- A measured phase: the cycle counter when it starts, and the cycles that it takes. -/
structure Span where
  start : Nat
  cycles : Nat
  short : cycles < 2 ^ 32

/-- The milliseconds of a phase. -/
def Span.ms (p : Span) : Nat := 1000 * p.cycles / cpuHzEst.toNat

/-- The 32 bits of the counter that are read wrap during the phase. -/
def Span.Wraps (p : Span) : Prop := 2 ^ 32 ≤ p.start % 2 ^ 32 + p.cycles

theorem toNat_cycleCount (t : Nat) : (cycleCount t).toNat = t % 2 ^ 32 := by
  simp [cycleCount]

theorem toNat_elapsed (p : Span) :
    (cycleCount (p.start + p.cycles) - cycleCount p.start).toNat =
      p.cycles + if 2 ^ 32 ≤ p.start % 2 ^ 32 + p.cycles then 2 ^ 64 - 2 ^ 32 else 0 := by
  have hshort := p.short
  rw [UInt64.toNat_sub, toNat_cycleCount, toNat_cycleCount]
  split_ifs with h <;> omega

theorem elapsed_iff (p : Span) :
    (cycleCount (p.start + p.cycles) - cycleCount p.start).toNat = p.cycles ↔ ¬ p.Wraps := by
  rw [toNat_elapsed, Span.Wraps]
  split_ifs with h <;> omega

/-- The conversion to milliseconds does not overflow for the cycles of a short phase. -/
theorem toNat_cyclesToMs {c : UInt64} (h : c.toNat < 2 ^ 32) :
    c.toNat * 1000 < 2 ^ 64 ∧ (cyclesToMs c).toNat = 1000 * c.toNat / cpuHzEst.toNat := by
  have hproduct : c.toNat * 1000 < 2 ^ 64 := by omega
  refine ⟨hproduct, ?_⟩
  have hpos : cpuHzEst > 0 := by decide
  rw [cyclesToMs, if_pos hpos, UInt64.toNat_div, UInt64.toNat_mul]
  have hthousand : (1000 : UInt64).toNat = 1000 := rfl
  rw [hthousand, Nat.mod_eq_of_lt hproduct, Nat.mul_comm]

/-- The two units agree only when both quotients are zero. -/
theorem scaled_div_eq_iff {bits ms : Nat} (h : 0 < ms) :
    1000 * bits / ms = bits / ms ↔ 1000 * bits < ms := by
  constructor
  · intro heq
    have hscale := Nat.mul_div_le_mul_div_assoc 1000 bits ms
    have hzero : 1000 * bits / ms = 0 := by omega
    exact Nat.lt_of_div_eq_zero h hzero
  · intro hlt
    rw [Nat.div_eq_of_lt hlt, Nat.div_eq_of_lt (by omega)]

/-! ## The measurement variables after a run -/

/-- The run gets through the data exchange. -/
def Exchanged (env : DemoEnv) : Prop :=
  SetUp env ∧ Connected env ∧ env.write = sizeofAppMsg ∧ 0 ≤ env.read

theorem runDtls13Demo_of_setUp {env : DemoEnv} (h : SetUp env) :
    ∃ done, runDtls13Demo env = runSession env done := by
  obtain ⟨harp, hctx, hca, hcert, hkey, hssl⟩ := h
  unfold runDtls13Demo
  simp only [harp, hctx, hca, hcert, hkey, hssl, ne_eq, not_true_eq_false, if_false,
    Bool.true_eq_false]
  exact ⟨_, rfl⟩

theorem globals_of_connected {env : DemoEnv} (hsetUp : SetUp env) (hconn : Connected env) :
    (runDtls13Demo env).globals.hsCycles = env.hsEndCycles - env.hsStartCycles ∧
      (runDtls13Demo env).globals.hsMs = cyclesToMs (env.hsEndCycles - env.hsStartCycles) ∧
      (runDtls13Demo env).globals.pqcCycles = env.hsEndCycles - env.hsStartCycles := by
  obtain ⟨done, hrun⟩ := runDtls13Demo_of_setUp hsetUp
  have hhs := (handshake_success_iff env).mpr hconn
  rw [hrun]
  unfold runSession
  dsimp only
  rw [hhs]
  dsimp only
  split_ifs <;> exact ⟨rfl, rfl, rfl⟩

theorem globals_of_exchanged {env : DemoEnv} (h : Exchanged env) :
    (runDtls13Demo env).globals.dataCycles = env.dataEndCycles - env.dataStartCycles ∧
      (runDtls13Demo env).globals.dataMs =
        cyclesToMs (env.dataEndCycles - env.dataStartCycles) ∧
      (runDtls13Demo env).globals.dataBytes = env.read.toUInt32 := by
  obtain ⟨hsetUp, hconn, hwrite, hread⟩ := h
  obtain ⟨done, hrun⟩ := runDtls13Demo_of_setUp hsetUp
  have hhs := (handshake_success_iff env).mpr hconn
  have hread' : ¬ env.read < 0 := Int32.not_lt.mpr hread
  rw [hrun]
  unfold runSession
  dsimp only
  rw [hhs]
  dsimp only
  rw [if_neg (not_not.mpr hwrite), if_neg hread']
  exact ⟨rfl, rfl, rfl⟩

/-! ## Reported and true -/

/-- The readings of the cycle counter for two phases that start and last as given. -/
def DemoEnv.timed (env : DemoEnv) (hs data : Span) : DemoEnv :=
  { env with
    hsStartCycles := cycleCount hs.start
    hsEndCycles := cycleCount (hs.start + hs.cycles)
    dataStartCycles := cycleCount data.start
    dataEndCycles := cycleCount (data.start + data.cycles) }

/-- A reported duration is the true one, in cycles and in milliseconds, and the product of the
conversion fits into 64 bits. -/
structure TimeRight (p : Span) (cycles ms : UInt64) : Prop where
  cyclesRight : cycles.toNat = p.cycles
  msRight : ms.toNat = p.ms
  noOverflow : cycles.toNat * 1000 < 2 ^ 64

/-- The throughput line stands in the report when the data time is not 0 ms, with the bits per
millisecond, and is left out, with its division, when it is. -/
structure RateRight (bytes : Nat) (r : DemoResult) : Prop where
  printed : r.globals.dataMs ≠ 0 → ∃ kbps, (mainReport r).throughput =
    some (r.globals.dataBytes, r.globals.dataMs, kbps) ∧
      r.globals.dataBytes.toNat = bytes ∧ kbps.toNat = 8 * bytes / r.globals.dataMs.toNat
  omitted : r.globals.dataMs = 0 → (mainReport r).throughput = none

/-- The handshake times are right, and the handshake line, if printed, shows them. -/
structure HandshakeRight (hs : Span) (r : DemoResult) : Prop where
  time : TimeRight hs r.globals.hsCycles r.globals.hsMs
  pqc : r.globals.pqcCycles.toNat = hs.cycles
  printed : ∀ line, (mainReport r).handshake = some line →
    line = (r.globals.hsCycles, r.globals.hsMs)

/-- What the client reports of a run is right, for each phase that the run completes. -/
structure MeasuredRight (env : DemoEnv) (hs data : Span) : Prop where
  handshake : SetUp env → Connected env →
    HandshakeRight hs (runDtls13Demo (env.timed hs data))
  exchange : Exchanged env →
    TimeRight data (runDtls13Demo (env.timed hs data)).globals.dataCycles
        (runDtls13Demo (env.timed hs data)).globals.dataMs ∧
      RateRight env.read.toNatClampNeg (runDtls13Demo (env.timed hs data))

theorem timeRight_iff (p : Span) :
    TimeRight p (cycleCount (p.start + p.cycles) - cycleCount p.start)
        (cyclesToMs (cycleCount (p.start + p.cycles) - cycleCount p.start)) ↔ ¬ p.Wraps := by
  have hiff := elapsed_iff p
  generalize cycleCount (p.start + p.cycles) - cycleCount p.start = c at hiff ⊢
  constructor
  · intro h
    exact hiff.mp h.cyclesRight
  · intro h
    have hcycles := hiff.mpr h
    have hshort : c.toNat < 2 ^ 32 := by
      rw [hcycles]
      exact p.short
    obtain ⟨hproduct, hms⟩ := toNat_cyclesToMs hshort
    exact ⟨hcycles, by rw [hms, hcycles, Span.ms], hproduct⟩

/-- The kbit/s of the report, for bytes and milliseconds whose scaled product fits. -/
theorem toNat_kbps (bytes : UInt32) (ms : UInt64) :
    (bytes.toUInt64 * 8 * 1000 / ms).toNat = 1000 * (8 * bytes.toNat) / ms.toNat := by
  have hbytes := bytes.toNat_lt
  have hbits : (8 : UInt64).toNat = 8 := rfl
  have hthousand : (1000 : UInt64).toNat = 1000 := rfl
  rw [UInt64.toNat_div, UInt64.toNat_mul, UInt64.toNat_mul, UInt32.toNat_toUInt64, hbits,
    hthousand, Nat.mod_eq_of_lt (by omega), Nat.mod_eq_of_lt (by omega)]
  congr 1
  omega

theorem rateRight_iff {bytes : Nat} {r : DemoResult} (hstatus : r.status = 0)
    (hbytes : r.globals.dataBytes.toNat = bytes)
    (hms : r.globals.dataMs ≠ 0 → r.globals.dataCycles > 0) :
    RateRight bytes r ↔ r.globals.dataMs.toNat = 0 ∨ 8000 * bytes < r.globals.dataMs.toNat := by
  by_cases hzero : r.globals.dataMs = 0
  · have homitted : (mainReport r).throughput = none := by simp [mainReport, hzero]
    have hnat : r.globals.dataMs.toNat = 0 := by rw [hzero]; rfl
    simp only [hnat, true_or, iff_true]
    exact ⟨fun h => absurd hzero h, fun _ => homitted⟩
  · have hpos : 0 < r.globals.dataMs.toNat := by
      have hne : r.globals.dataMs.toNat ≠ 0 := fun h => hzero (UInt64.toNat_inj.mp h)
      omega
    have hprinted : (mainReport r).throughput = some (r.globals.dataBytes, r.globals.dataMs,
        r.globals.dataBytes.toUInt64 * 8 * 1000 / r.globals.dataMs) := by
      have hgt : r.globals.dataMs > 0 := UInt64.lt_iff_toNat_lt.mpr hpos
      simp [mainReport, hstatus, hms hzero, hgt]
    have hkbps := toNat_kbps r.globals.dataBytes r.globals.dataMs
    have hscaled : 1000 * (8 * bytes) / r.globals.dataMs.toNat =
        8 * bytes / r.globals.dataMs.toNat ↔ 1000 * (8 * bytes) < r.globals.dataMs.toNat :=
      scaled_div_eq_iff hpos
    rw [hbytes] at hkbps
    constructor
    · intro h
      obtain ⟨kbps, hline, _, hrate⟩ := h.printed hzero
      rw [hprinted] at hline
      cases hline
      have := hscaled.mp (hkbps.symm.trans hrate)
      omega
    · intro h
      have hlt : 1000 * (8 * bytes) < r.globals.dataMs.toNat := by omega
      refine ⟨fun _ => ⟨_, hprinted, hbytes, ?_⟩, fun h0 => absurd h0 hzero⟩
      rw [hkbps]
      exact hscaled.mpr hlt

/-- No reading wraps within a completed phase, and the data exchange takes less than a
millisecond or more milliseconds than the reply has bits, a thousand times over. -/
def Measurable (env : DemoEnv) (hs data : Span) : Prop :=
  (SetUp env → Connected env → ¬ hs.Wraps) ∧
    (Exchanged env → ¬ data.Wraps ∧ (data.ms = 0 ∨ 8000 * env.read.toNatClampNeg < data.ms))

theorem handshake_printed (r : DemoResult) (line : UInt64 × UInt64)
    (h : (mainReport r).handshake = some line) : line = (r.globals.hsCycles, r.globals.hsMs) := by
  simp only [mainReport, Option.ite_none_right_eq_some, Option.some.injEq] at h
  exact h.2.symm

theorem handshake_measured_iff {env : DemoEnv} (hsetUp : SetUp env) (hconn : Connected env)
    (hs data : Span) :
    HandshakeRight hs (runDtls13Demo (env.timed hs data)) ↔ ¬ hs.Wraps := by
  have hsetUp' : SetUp (env.timed hs data) := hsetUp
  obtain ⟨hcycles, hms, hpqc⟩ := globals_of_connected hsetUp' hconn
  have htime : TimeRight hs (runDtls13Demo (env.timed hs data)).globals.hsCycles
      (runDtls13Demo (env.timed hs data)).globals.hsMs ↔ ¬ hs.Wraps := by
    rw [hcycles, hms]
    exact timeRight_iff hs
  constructor
  · intro h
    exact htime.mp h.time
  · intro h
    have hpqc' : (runDtls13Demo (env.timed hs data)).globals.pqcCycles.toNat = hs.cycles := by
      rw [hpqc]
      exact (elapsed_iff hs).mpr h
    exact ⟨htime.mpr h, hpqc', handshake_printed _⟩

theorem exchange_measured_iff {env : DemoEnv} (h : Exchanged env) (hs data : Span) :
    (TimeRight data (runDtls13Demo (env.timed hs data)).globals.dataCycles
        (runDtls13Demo (env.timed hs data)).globals.dataMs ∧
      RateRight env.read.toNatClampNeg (runDtls13Demo (env.timed hs data))) ↔
      ¬ data.Wraps ∧ (data.ms = 0 ∨ 8000 * env.read.toNatClampNeg < data.ms) := by
  have h' : Exchanged (env.timed hs data) := h
  obtain ⟨hcycles, hms, hbytes⟩ := globals_of_exchanged h'
  have hstatus : (runDtls13Demo (env.timed hs data)).status = 0 :=
    (runDtls13Demo_status (env.timed hs data)).2.mpr h'
  have hread : (runDtls13Demo (env.timed hs data)).globals.dataBytes.toNat =
      env.read.toNatClampNeg := by
    rw [hbytes]
    exact Int32.toNat_toUInt32_of_le h.2.2.2
  have hpos : (runDtls13Demo (env.timed hs data)).globals.dataMs ≠ 0 →
      (runDtls13Demo (env.timed hs data)).globals.dataCycles > 0 := by
    rw [hms, ← hcycles]
    intro hne
    by_contra hnot
    have hzero := UInt64.le_zero_iff.mp (UInt64.not_lt.mp hnot)
    exact hne (by rw [hzero]; rfl)
  have htime : TimeRight data (runDtls13Demo (env.timed hs data)).globals.dataCycles
      (runDtls13Demo (env.timed hs data)).globals.dataMs ↔ ¬ data.Wraps := by
    rw [hcycles, hms]
    exact timeRight_iff data
  have hrate := rateRight_iff hstatus hread hpos
  constructor
  · rintro ⟨ht, hr⟩
    exact ⟨htime.mp ht, ht.msRight ▸ hrate.mp hr⟩
  · rintro ⟨hwraps, hr⟩
    have ht := htime.mpr hwraps
    exact ⟨ht, hrate.mpr (by rwa [ht.msRight])⟩

/-- The report is right exactly for the runs that are measurable. -/
theorem measuredRight_iff (env : DemoEnv) (hs data : Span) :
    MeasuredRight env hs data ↔ Measurable env hs data := by
  constructor
  · intro h
    refine ⟨fun hsetUp hconn => ?_, fun hex => ?_⟩
    · exact (handshake_measured_iff hsetUp hconn hs data).mp (h.handshake hsetUp hconn)
    · exact (exchange_measured_iff hex hs data).mp (h.exchange hex)
  · intro h
    refine ⟨fun hsetUp hconn => ?_, fun hex => ?_⟩
    · exact (handshake_measured_iff hsetUp hconn hs data).mpr (h.1 hsetUp hconn)
    · exact (exchange_measured_iff hex hs data).mpr (h.2 hex)

/-- The run of the recorded console log: 37 bytes are echoed. -/
def recordedEnv : DemoEnv := { closedEnv with read := 37 }

def recordedHandshake : Span := ⟨0, 962408434, by decide⟩
def recordedExchange : Span := ⟨0, 1343000, by decide⟩

/-- The recorded exchange of 37 bytes in 1343 ms is reported as 220 kbit/s. -/
theorem recorded_mismeasured :
    ¬ ∀ (env : DemoEnv) (hs data : Span), MeasuredRight env hs data := by
  intro h
  have exchanged : Exchanged recordedEnv := by
    refine ⟨⟨by decide, rfl, rfl, rfl, rfl, rfl⟩, ⟨0, by decide, rfl, by omega⟩, rfl, by decide⟩
  have right := ((h recordedEnv recordedHandshake recordedExchange).exchange exchanged).2
  have hline : (mainReport (runDtls13Demo
      (recordedEnv.timed recordedHandshake recordedExchange))).throughput =
      some (37, 1343, 220) := by decide
  have hms : (runDtls13Demo (recordedEnv.timed recordedHandshake recordedExchange)).globals.dataMs =
      1343 := by decide
  obtain ⟨kbps, hprinted, _, hrate⟩ := right.printed (by rw [hms]; decide)
  rw [hline] at hprinted
  cases hprinted
  rw [hms] at hrate
  exact absurd hrate (by decide)

end LitexDtls.Client
