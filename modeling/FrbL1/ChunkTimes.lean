import Mathlib.Data.Rat.Defs
import Mathlib.Algebra.Order.Ring.Rat
import Mathlib.Tactic.FieldSimp
import Mathlib.Tactic.Linarith
import Mathlib.Tactic.Ring
/-!
# ChunkTimes — the times of a chunk in python

`AssembledChunk` of `rpc_client.py` takes its numbers from the message as they are: `fpga0` and `fpgaN` are FPGA counts.
`time_start` and `time_end` take them for samples, and multiply with the FPGA counts of a sample again.  So the times
agree with the sample axis only where a sample is one count, or where all counts are zero (`timesAgree_iff`).
-/
namespace FrbL1
namespace ChunkTimes

/-- What `msgpack.unpackb` makes of the elements of a chunk. -/
inductive Value
  | int (n : Int)
  | bool (b : Bool)
  | bin (s : List UInt8)

def Value.asInt : Value → Option Int
  | .int n => some n
  | _      => none

structure AssembledChunk where
  version             : Int
  ntPerPacket         : Int
  fpgaCountsPerSample : Int
  ntCoarse            : Int
  fpga0               : Int
  fpgaN               : Int
  binning             : Int
  frame0Nano          : Int

namespace AssembledChunk

def nt (c : AssembledChunk) : Int := c.ntCoarse * c.ntPerPacket

def intAt (elements : List Value) (i : Nat) : Option Int := elements[i]?.bind Value.asInt

/-- `AssembledChunk.__init__`, of the message. -/
def ofMessage (c : List Value) : Option AssembledChunk := do
  let version ← intAt c 1
  guard (version = 1 ∨ version = 2)
  if version = 1 then
    guard (c.length = 17)
  if version = 2 then
    guard (c.length = 21)
  let ntPerPacket ← intAt c 6
  let fpgaCountsPerSample ← intAt c 7
  let ntCoarse ← intAt c 8
  let fpga0 ← intAt c 11
  let fpgaN ← intAt c 12
  let binning ← intAt c 13
  let frame0Nano ← if version = 2 then intAt c 17 else some 0
  return { version, ntPerPacket, fpgaCountsPerSample, ntCoarse, fpga0, fpgaN, binning, frame0Nano }

def fpgaNano : ℚ := 2560

def timeStart (c : AssembledChunk) : ℚ :=
  1 / 10 ^ 9 * (c.frame0Nano + c.fpgaCountsPerSample * fpgaNano * c.fpga0)

def timeEnd (c : AssembledChunk) : ℚ :=
  1 / 10 ^ 9 * (c.frame0Nano + c.fpgaCountsPerSample * fpgaNano * (c.fpga0 + c.fpgaN))

/-- The left and the right end of the sample axis of `test_rfi_mask.py`; dividing by zero raises. -/
def sampleAxis (c : AssembledChunk) : Option (ℚ × ℚ) :=
  if c.fpgaCountsPerSample = 0 then none
  else
    let sample0 : ℚ := c.fpga0 / c.fpgaCountsPerSample
    some (sample0, sample0 + c.nt * c.binning)

/-- The FPGA counts of the plot of `get_max_fpga_counts`, in seconds. -/
def plotted (fpga : Int) : ℚ := fpga * (256 / 100 / 10 ^ 6)

def sampleLength (c : AssembledChunk) : ℚ := 1 / 10 ^ 9 * (c.fpgaCountsPerSample * fpgaNano)

/-- **The times are those of the sample axis**, and of the plotted FPGA counts. -/
structure TimesAgree (c : AssembledChunk) : Prop where
  samples : ∃ sample0 sample1, c.sampleAxis = some (sample0, sample1) ∧
    c.timeStart = 1 / 10 ^ 9 * c.frame0Nano + sample0 * c.sampleLength ∧
    c.timeEnd = 1 / 10 ^ 9 * c.frame0Nano + sample1 * c.sampleLength
  length  : c.timeEnd - c.timeStart = c.nt * c.binning * c.sampleLength
  plot    : c.timeStart = 1 / 10 ^ 9 * c.frame0Nano + plotted c.fpga0 ∧ c.timeEnd - c.timeStart = plotted c.fpgaN

variable {c : AssembledChunk}

theorem timeStart_eq : c.timeStart = 1 / 10 ^ 9 * c.frame0Nano + plotted c.fpga0 * c.fpgaCountsPerSample := by
  unfold timeStart fpgaNano plotted
  ring

theorem timeEnd_sub_timeStart : c.timeEnd - c.timeStart = plotted c.fpgaN * c.fpgaCountsPerSample := by
  unfold timeEnd timeStart fpgaNano plotted
  ring

theorem plotted_eq_zero {fpga : Int} : plotted fpga = 0 ↔ fpga = 0 := by
  unfold plotted
  rw [mul_eq_zero, Int.cast_eq_zero, or_iff_left (by norm_num)]

theorem plotted_mul_eq_iff {fpga f : Int} : plotted fpga * f = plotted fpga ↔ f = 1 ∨ fpga = 0 := by
  rw [mul_right_eq_self₀, Int.cast_eq_one, plotted_eq_zero]

theorem nt_mul_sampleLength (hN : c.fpgaN = c.nt * c.binning * c.fpgaCountsPerSample) :
    c.nt * c.binning * c.sampleLength = plotted c.fpgaN := by
  rw [hN]
  unfold sampleLength fpgaNano plotted
  push_cast
  ring

theorem sample0_mul_sampleLength (h0 : c.fpgaCountsPerSample ≠ 0) :
    c.fpga0 / c.fpgaCountsPerSample * c.sampleLength = plotted c.fpga0 := by
  have hne : (c.fpgaCountsPerSample : ℚ) ≠ 0 := Int.cast_ne_zero.2 h0
  unfold sampleLength fpgaNano plotted
  field_simp
  ring

theorem agree_iff (hN : c.fpgaN = c.nt * c.binning * c.fpgaCountsPerSample) : c.TimesAgree ↔
    c.fpgaCountsPerSample ≠ 0 ∧ c.timeStart = 1 / 10 ^ 9 * c.frame0Nano + plotted c.fpga0 ∧
      c.timeEnd - c.timeStart = plotted c.fpgaN := by
  constructor
  · rintro ⟨⟨_, _, haxis, -, -⟩, -, hplot⟩
    refine ⟨fun h0 => ?_, hplot⟩
    rw [sampleAxis, if_pos h0] at haxis
    cases haxis
  · rintro ⟨h0, hstart, hlength⟩
    refine ⟨⟨_, _, if_neg h0, ?_, ?_⟩, hlength.trans (nt_mul_sampleLength hN).symm, hstart, hlength⟩
    · rw [hstart, sample0_mul_sampleLength h0]
    · rw [add_mul, sample0_mul_sampleLength h0, nt_mul_sampleLength hN, ← add_assoc, ← hstart, ← hlength]
      ring

/-- **The times of a chunk agree** where a sample is one FPGA count, or where there are no counts at all. -/
theorem timesAgree_iff {message : List Value} (_h : ofMessage message = some c)
    (hN : c.fpgaN = c.nt * c.binning * c.fpgaCountsPerSample) : c.TimesAgree ↔
    c.fpgaCountsPerSample = 1 ∨ c.fpgaCountsPerSample ≠ 0 ∧ c.fpga0 = 0 ∧ c.fpgaN = 0 := by
  rw [agree_iff hN, timeEnd_sub_timeStart, timeStart_eq, add_right_inj, plotted_mul_eq_iff, plotted_mul_eq_iff]
  constructor
  · rintro ⟨h0, hone | hstart, hone' | hlength⟩
    · exact .inl hone
    · exact .inl hone
    · exact .inl hone'
    · exact .inr ⟨h0, hstart, hlength⟩
  · rintro (hone | ⟨h0, hstart, hlength⟩)
    · exact ⟨by rw [hone]; decide, .inl hone, .inl hone⟩
    · exact ⟨h0, .inr hstart, .inr hlength⟩

def message (fpgaCountsPerSample fpga0 fpgaN : Int) : List Value :=
  [.bin [], .int 2, .bool false, .int 0, .int 7, .int 16, .int 16, .int fpgaCountsPerSample, .int 64, .int 65536,
    .int 16777216, .int fpga0, .int fpgaN, .int 1, .bin [], .bin [], .bin [], .int 0, .int 0, .bool false, .bin []]

/-- One count a sample. -/
theorem timesAgree_counts : (⟨2, 16, 1, 64, 1024, 1024, 1, 0⟩ : AssembledChunk).TimesAgree :=
  (@timesAgree_iff ⟨2, 16, 1, 64, 1024, 1024, 1, 0⟩ (message 1 1024 1024) rfl rfl).2 (.inl rfl)

/-- **384 counts a sample**, which is the default: the chunk would begin at 387 s, and begins at 1 s. -/
theorem not_timesAgree_samples : ¬ ∀ (message : List Value) (c : AssembledChunk), ofMessage message = some c →
    c.fpgaN = c.nt * c.binning * c.fpgaCountsPerSample → c.TimesAgree := by
  intro hall
  have hagree := hall (message 384 (1024 * 384) (1024 * 384)) ⟨2, 16, 384, 64, 1024 * 384, 1024 * 384, 1, 0⟩ rfl (by decide)
  have hstart := ((agree_iff (by decide)).1 hagree).2.1
  rw [timeStart_eq] at hstart
  unfold plotted at hstart
  norm_num at hstart

end AssembledChunk
end ChunkTimes
end FrbL1
