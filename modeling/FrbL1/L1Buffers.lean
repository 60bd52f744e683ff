import FrbL1.L1Server
import FrbL1.Rounding
import Mathlib.Algebra.Ring.Int.Defs
import Mathlib.Tactic.Positivity
/-!
# L1Buffers — the buffers of the L1 server

The derived parameters are large enough: a list of unassembled packets for its time window, the ring buffers for the
samples that were asked for, and the memory pool of each cpu for the chunks of its beams and streams
(`buffers_suffice`).  The numbers are integers here.
-/
namespace FrbL1
namespace Config

open Posix (Tree)
open Rounding
open Slices (length_slice countP_div_range)

/-- The number of packets in 100 ms, rounded up. -/
def L1Config.np (c : L1Config) : Int := (40000 : Int).tdiv (c.ntPerPacket * c.fpgaCountsPerSample) + 1

def L1Config.temporaryChunksPerStream (c : L1Config) : Int := max 1 (c.telescopingRingbufNchunks.length : Int)

def L1Config.totalStagingChunks (c : L1Config) : Int :=
  ⌊(2 ^ 30 : ℚ) * c.writeStagingAreaGb / c.nbytesPerMemorySlab⌋

/-- `total_memory_slabs`, for so many staging chunks. -/
def L1Config.slabs (c : L1Config) (totalStagingChunks : Int) : Int :=
  c.nbeams * liveChunksPerBeam c + c.nstreams * c.temporaryChunksPerStream + totalStagingChunks

def makeMemorySlabPools (ncpus totalMemorySlabs : Int) : List Int :=
  List.replicate ncpus.toNat (totalMemorySlabs.tdiv ncpus)

def L1Server.streamsOf (s : L1Server) (icpu : Nat) : List InputStream :=
  s.inputStreams.filter (fun x => decide (x.iniParams.memoryPool = icpu))

def L1Server.nbeamsOf (s : L1Server) (icpu : Nat) : Nat :=
  ((s.streamsOf icpu).map (fun x => x.iniParams.beamIds.length)).sum

structure L1Config.Roomy (packetSize : Int → Int → Int → Int → Int) (c : L1Config) : Prop where
  window       : 40000 < c.np * c.ntPerPacket * c.fpgaCountsPerSample
  npackets     : ∀ n, 0 < n → n ∣ nfreqCoarseTot → (c.np * nfreqCoarseTot).tdiv n ≤ c.unassembledNpacketsPerList
  nbytes       : ∀ n, 0 < n → n ∣ nfreqCoarseTot → (c.np * nfreqCoarseTot).tdiv n *
    packetSize (c.nbeams.tdiv c.nstreams) n (c.nfreq.tdiv nfreqCoarseTot) c.ntPerPacket ≤ c.unassembledNbytesPerList
  unassembled  : c.unassembledRingbufNsamples ≤ c.unassembledRingbufCapacity * (c.np * c.ntPerPacket)
  assembled    : IsLeast {k | 2 ≤ k ∧ c.assembledRingbufNsamples ≤ k * ntPerAssembledChunk} c.assembledRingbufNchunks
  telescoping_length : c.telescopingRingbufNchunks.length = c.telescopingRingbufNsamples.length
  telescoping  : ∀ (i : Nat) n k, c.telescopingRingbufNsamples[i]? = some n → c.telescopingRingbufNchunks[i]? = some k →
    IsLeast {k | 2 ≤ k ∧ n ≤ k * (2 ^ i * ntPerAssembledChunk)} k

theorem isLeast_nchunks {n len : Int} (hn : 0 < n) (hlen : 0 < len) :
    IsLeast {k | 2 ≤ k ∧ n ≤ k * len} (nchunks n len) := by
  unfold nchunks
  rw [tdiv_eq_roundUp hn hlen]
  exact isLeast_max_roundUp hlen 2

theorem lt_tdiv_add_one_mul {n len : Int} (hn : 0 ≤ n) (hlen : 0 < len) : n < (n.tdiv len + 1) * len := by
  rw [Int.tdiv_eq_ediv_of_nonneg hn]
  exact Int.lt_ediv_add_one_mul_self n hlen

namespace L1Config.Sane

variable {c : L1Config} {n : Int} (h : c.Sane n)
include h

theorem fp_pos : 0 < c.ntPerPacket * c.fpgaCountsPerSample :=
  Int.mul_pos h.ntPerPacket_pos h.fpgaCountsPerSample_pos

theorem np_pos : 0 < c.np := by
  have hq : 0 ≤ (40000 : Int).tdiv (c.ntPerPacket * c.fpgaCountsPerSample) := Int.tdiv_nonneg (by decide) h.fp_pos.le
  unfold L1Config.np
  omega

theorem setStream (devname acqname : List Char) (beams : List Int) : (c.setStream devname acqname beams).Sane n :=
  { h with }

theorem shares_pos : 0 < c.nbeams.tdiv c.nstreams ∧ 0 < c.nfreq.tdiv nfreqCoarseTot := by
  constructor
  · exact Int.tdiv_pos_of_pos_of_dvd h.nbeams_pos h.nstreams_pos.le h.nstreams_dvd
  · exact Int.tdiv_pos_of_pos_of_dvd h.nfreq_pos (by decide) h.nfreq_dvd

end L1Config.Sane

theorem roomy_derive {env : Env} {c : L1Config} {n : Int} (h : c.Sane n)
    (hsize : ∀ nb n nu nt, 0 < nb → 0 < n → 0 < nu → 0 < nt → env.packetSize nb n nu nt ≤ n * env.packetSize nb 1 nu nt) :
    (deriveParams env c).Roomy env.packetSize := by
  have hnp := h.np_pos
  have hnt := h.ntPerPacket_pos
  have hlist : 0 ≤ c.np * nfreqCoarseTot := Int.mul_nonneg hnp.le (by decide)
  refine ⟨?_, ?_, ?_, ?_, ?_, ?_, ?_⟩
  · show 40000 < c.np * c.ntPerPacket * c.fpgaCountsPerSample
    rw [Int.mul_assoc]
    exact lt_tdiv_add_one_mul (by decide) h.fp_pos
  · intro k hk hdvd
    exact Int.tdiv_le_self _ hlist
  · intro k hk hdvd
    have hexact : (c.np * nfreqCoarseTot).tdiv k * k = c.np * nfreqCoarseTot :=
      Int.tdiv_mul_cancel (hdvd.mul_left c.np)
    have hone := hsize _ k _ _ h.shares_pos.1 hk h.shares_pos.2 hnt
    show (c.np * nfreqCoarseTot).tdiv k * _ ≤ c.np * nfreqCoarseTot * _
    calc (c.np * nfreqCoarseTot).tdiv k * _
        ≤ (c.np * nfreqCoarseTot).tdiv k * (k * _) := Int.mul_le_mul_of_nonneg_left hone (Int.tdiv_nonneg hlist hk.le)
      _ = c.np * nfreqCoarseTot * _ := by rw [← Int.mul_assoc, hexact]
  · exact (lt_tdiv_add_one_mul h.unassembledRingbufNsamples_pos.le (Int.mul_pos hnp hnt)).le
  · exact isLeast_nchunks h.assembledRingbufNsamples_pos (by decide)
  · exact List.length_mapIdx
  · intro i n k hn hk
    have hpos : 0 < n := h.telescoping_pos n (List.mem_of_getElem? hn)
    have hk' : (c.telescopingRingbufNsamples.mapIdx (fun i n => nchunks n (2 ^ i * ntPerAssembledChunk)))[i]? = some k := hk
    have hn' : c.telescopingRingbufNsamples[i]? = some n := hn
    rw [List.getElem?_mapIdx, hn', Option.map_some] at hk'
    obtain rfl := Option.some.inj hk'
    apply isLeast_nchunks hpos
    exact Int.mul_pos (by positivity) (by decide)

theorem L1Config.Roomy.liveChunksPerBeam_nonneg {packetSize : Int → Int → Int → Int → Int} {c : L1Config}
    (h : c.Roomy packetSize) : 0 ≤ liveChunksPerBeam c := by
  have hassembled : 2 ≤ c.assembledRingbufNchunks := h.assembled.1.1
  have htelescoping : 0 ≤ c.telescopingRingbufNchunks.sum := by
    apply List.sum_nonneg
    intro k hk
    obtain ⟨i, hi⟩ := List.mem_iff_getElem?.1 hk
    have hlt := (List.getElem?_eq_some_iff.1 hi).1
    have hk2 := (h.telescoping i _ k (List.getElem?_eq_getElem (h.telescoping_length ▸ hlt)) hi).1.1
    omega
  unfold liveChunksPerBeam
  simp only
  split <;> omega

/-! ## Pools -/

structure L1Server.PerCpu (s : L1Server) (ncpus nstreamsPerCpu : Nat) : Prop where
  ncpus_eq     : s.ncpus = ncpus
  ncpus_pos    : 0 < ncpus
  nstreams     : s.config.nstreams = (ncpus * nstreamsPerCpu : Nat)
  inputStreams : ∃ nupfreq, s.inputStreams = (List.range (ncpus * nstreamsPerCpu)).map
    (makeInputStream s.config nstreamsPerCpu s.config.nbeamsPerStream nupfreq)

theorem l1Server_perCpu {env : Env} {numCores : Int} {opts : Options} {p : Paramfile} {t : Tree} {s : L1Server}
    (h : (l1Server env numCores opts p t).1 = .ok s) : ∃ ncpus nstreamsPerCpu, s.PerCpu ncpus nstreamsPerCpu := by
  have hw := l1Server_wired h
  obtain ⟨-, -, hss⟩ := l1Server_eq_ok.1 h
  obtain ⟨nstreamsPerCpu, nbeamsPerStream, nupfreq, hspc, hbps, -, -, hss⟩ := makeInputStreams_eq_ok.1 hss
  obtain ⟨hnstreams, hncpus, hspc⟩ := xdiv_eq_ok hspc
  obtain ⟨hnbeams, hpos, hbps⟩ := xdiv_eq_ok hbps
  have hbeams : nbeamsPerStream = s.config.nbeamsPerStream := by
    apply Int.eq_of_mul_eq_mul_left hpos.ne'
    rw [← hnbeams, ← hw.nbeams]
  have hncpus' : ((s.ncpus.toNat : Nat) : Int) = s.ncpus := Int.toNat_of_nonneg hncpus.le
  have hspc' : ((nstreamsPerCpu.toNat : Nat) : Int) = nstreamsPerCpu := Int.toNat_of_nonneg hspc.le
  have hprod : s.config.nstreams = (s.ncpus.toNat * nstreamsPerCpu.toNat : Nat) := by
    rw [Nat.cast_mul, hncpus', hspc', hnstreams]
  refine ⟨s.ncpus.toNat, nstreamsPerCpu.toNat, hncpus'.symm, by omega, hprod, nupfreq, ?_⟩
  rw [hss, hprod, hbeams, hspc', Int.toNat_natCast]

namespace L1Server.PerCpu

variable {s : L1Server} {ncpus nstreamsPerCpu : Nat} (h : s.PerCpu ncpus nstreamsPerCpu)
include h

theorem length_streamsOf {icpu : Nat} (hi : icpu < ncpus) : (s.streamsOf icpu).length = nstreamsPerCpu := by
  obtain ⟨nupfreq, hss⟩ := h.inputStreams
  have hcount := countP_div_range nstreamsPerCpu icpu ncpus
  rw [if_pos hi] at hcount
  unfold L1Server.streamsOf
  rw [← List.countP_eq_length_filter, hss, List.countP_map]
  refine (List.countP_congr (fun i hi => ?_)).trans hcount
  show decide ((i : Int).tdiv nstreamsPerCpu = icpu) = true ↔ decide (i / nstreamsPerCpu = icpu) = true
  rw [decide_eq_true_iff, decide_eq_true_iff, ← Int.ofNat_tdiv, Nat.cast_inj]

theorem length_beamIds (hw : s.Wired) : ∀ x ∈ s.inputStreams, x.iniParams.beamIds.length = s.config.nbeamsPerStream := by
  obtain ⟨nupfreq, hss⟩ := h.inputStreams
  intro x hx
  rw [hss] at hx
  obtain ⟨i, hi, rfl⟩ := List.mem_map.1 hx
  have hlen : s.config.beamIds.length = (ncpus * nstreamsPerCpu) * s.config.nbeamsPerStream := by
    rw [hw.length_beamIds, h.nstreams, Int.toNat_natCast]
  have hslice := length_slice hlen (List.mem_range.1 hi)
  simpa [makeInputStream, streamSlice] using hslice

theorem nbeamsOf_eq (hw : s.Wired) {icpu : Nat} (hi : icpu < ncpus) :
    s.nbeamsOf icpu = nstreamsPerCpu * s.config.nbeamsPerStream := by
  have hlen : ∀ x ∈ s.streamsOf icpu, x.iniParams.beamIds.length = s.config.nbeamsPerStream := fun x hx =>
    h.length_beamIds hw x (List.mem_filter.1 hx).1
  unfold L1Server.nbeamsOf
  rw [List.map_eq_replicate_iff.2 hlen, List.sum_replicate_nat, h.length_streamsOf hi]

theorem memoryPool_lt : ∀ x ∈ s.inputStreams, 0 ≤ x.iniParams.memoryPool ∧ x.iniParams.memoryPool < s.ncpus := by
  obtain ⟨nupfreq, hss⟩ := h.inputStreams
  intro x hx
  rw [hss] at hx
  obtain ⟨i, hi, rfl⟩ := List.mem_map.1 hx
  have hlt : i / nstreamsPerCpu < ncpus := Nat.div_lt_of_lt_mul (Nat.mul_comm _ _ ▸ List.mem_range.1 hi)
  show 0 ≤ (i : Int).tdiv nstreamsPerCpu ∧ (i : Int).tdiv nstreamsPerCpu < s.ncpus
  rw [← Int.ofNat_tdiv, h.ncpus_eq]
  exact ⟨Int.natCast_nonneg _, Int.ofNat_lt.2 hlt⟩

end L1Server.PerCpu

/-- What the buffers of a server have room for. -/
structure L1Server.BuffersSuffice (packetSize : Int → Int → Int → Int → Int) (s : L1Server) : Prop where
  roomy      : s.config.Roomy packetSize
  slabs      : s.config.totalMemorySlabs = s.config.slabs s.config.totalStagingChunks
  memoryPool : ∀ x ∈ s.inputStreams, 0 ≤ x.iniParams.memoryPool ∧ x.iniParams.memoryPool < s.ncpus
  pools      : ∀ totalStagingChunks, 0 ≤ totalStagingChunks → ∀ icpu : Nat, (icpu : Int) < s.ncpus →
    ∃ pool, (makeMemorySlabPools s.ncpus (s.config.slabs totalStagingChunks))[icpu]? = some pool ∧
      liveChunksPerBeam s.config * s.nbeamsOf icpu +
        s.config.temporaryChunksPerStream * (s.streamsOf icpu).length ≤ pool

theorem L1Server.PerCpu.pool_le {s : L1Server} {ncpus nstreamsPerCpu : Nat} (h : s.PerCpu ncpus nstreamsPerCpu)
    (hw : s.Wired) (hlive : 0 ≤ liveChunksPerBeam s.config) {totalStagingChunks : Int} (h0 : 0 ≤ totalStagingChunks)
    {icpu : Nat} (hi : icpu < ncpus) : liveChunksPerBeam s.config * s.nbeamsOf icpu +
      s.config.temporaryChunksPerStream * (s.streamsOf icpu).length ≤
        (s.config.slabs totalStagingChunks).tdiv s.ncpus := by
  have htemporary : 0 ≤ s.config.temporaryChunksPerStream := zero_le_one.trans (le_max_left _ _)
  have hnbeams := hw.nbeams
  rw [h.nstreams] at hnbeams
  rw [h.nbeamsOf_eq hw hi, h.length_streamsOf hi]
  apply le_tdiv_of_mul_le
  · rw [h.ncpus_eq]
    exact Int.natCast_pos.2 h.ncpus_pos
  · exact Int.add_nonneg (Int.mul_nonneg hlive (Int.natCast_nonneg _)) (Int.mul_nonneg htemporary (Int.natCast_nonneg _))
  · unfold L1Config.slabs
    rw [hnbeams, h.nstreams, h.ncpus_eq]
    push_cast
    linarith

/-- **The buffers of an accepted configuration suffice.** -/
theorem buffers_suffice {env : Env} {numCores : Int} {opts : Options} {p : Paramfile} {t : Tree} {s : L1Server}
    (h : (l1Server env numCores opts p t).1 = .ok s)
    (hsize : ∀ nb n nu nt, 0 < nb → 0 < n → 0 < nu → 0 < nt →
      env.packetSize nb n nu nt ≤ n * env.packetSize nb 1 nu nt) : s.BuffersSuffice env.packetSize := by
  have hw := l1Server_wired h
  obtain ⟨ncpus, nstreamsPerCpu, hper⟩ := l1Server_perCpu h
  obtain ⟨c₁, pattern, t', hrun, -, hconfig⟩ := l1Config_eq_ok.1 (l1Server_eq_ok.1 h).1
  obtain ⟨c₀, bonsai, R₁, devname, acqname, beams, hcommon, hc₁, -⟩ := readConfig_ok hrun
  obtain ⟨l1bPipeCapacity, hpipe⟩ := deriveL1b_eq bonsai (deriveParams env (c₀.setStream devname acqname beams))
  rw [hc₁, hpipe] at hconfig
  have hroomy : s.config.Roomy env.packetSize := by
    rw [hconfig]
    have hsane := (readCommon_sane hcommon).setStream devname acqname beams
    exact { roomy_derive hsane hsize with }
  refine ⟨hroomy, ?_, hper.memoryPool_lt, ?_⟩
  · rw [hconfig]
    rfl
  · intro totalStagingChunks h0 icpu hi
    have hi' : icpu < ncpus := by
      rw [hper.ncpus_eq] at hi
      exact Int.ofNat_lt.1 hi
    refine ⟨_, ?_, hper.pool_le hw hroomy.liveChunksPerBeam_nonneg h0 hi'⟩
    unfold makeMemorySlabPools
    rw [List.getElem?_replicate, if_pos]
    omega

/-! ## Eight beams, two cpus -/

def eightBeams : Paramfile where
  filename := "l1.yaml".toList
  nodes    := [("nbeams", scalar 8), ("nfreq", scalar 2048), ("nt_per_packet", scalar 16), ("nt_align", scalar 0),
    ("nrfifreq", scalar 1024), ("ipaddr", texts ["10.0.0.1".toList, "10.0.0.2".toList]), ("port", scalar 6677),
    ("rpc_address", texts ["tcp://10.0.0.1:5555".toList, "tcp://10.0.0.2:5555".toList]),
    ("prometheus_address", texts ["10.0.0.1:8888".toList, "10.0.0.2:8888".toList]),
    ("assembled_ringbuf_nsamples", scalar 5000), ("telescoping_ringbuf_nsamples", vector [8192, 9000]),
    ("frame0_url", text []), ("output_devices", text "/local".toList), ("l1b_executable_filename", text [])]

def eightBeamsServer : L1Server :=
  (l1Server plainEnv 20 toyOptions eightBeams localDisk).1.toOption.get (by decide +kernel)

theorem eightBeamsServer_suffices : eightBeamsServer.BuffersSuffice plainEnv.packetSize := by
  apply buffers_suffice (toOption_eq_some.1 (Option.some_get (by decide +kernel)).symm)
  intro nb n nu nt hnb hn _ _
  exact plainEnv_packetSize_le nu nt hnb hn

end Config
end FrbL1
