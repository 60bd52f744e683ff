import FrbL1.ChunkReplay
import FrbL1.L0Packets
/-!
# ChunkViews — the views of the buffers that are sent

A buffer is sent as rows with a stride.  `send_chunks` takes the length of its rows for it, `send_noise` the length of a
packet, so noise is sent as it was made only where these are the same (`views_iff`).
-/
namespace FrbL1
namespace L0

open Blocks (bijOn_stride_iff)
open Buffers (length_writeAll)
open Config
open Fallible (mem_of_mapM)

/-! ## `send_noise` -/

/-- What `send_noise` takes from an ostream. -/
structure NoiseIo extends FrbIo where
  nbytesPerChunk : Ostream → ℚ

/-- `int(target_nbytes / nbytes_per_chunk) + 1` -/
def NoiseIo.nchunks (io : NoiseIo) (o : Ostream) (numSeconds : ℚ) : Int :=
  let q := 125000000 * io.targetGbps o * numSeconds / io.nbytesPerChunk o
  q.num.tdiv q.den + 1

/-- One chunk of noise; `rand` yields the numbers of the generator, for each element of the chunk. -/
def NoiseIo.noiseChunk (io : NoiseIo) (l : L0Params) (o : Ostream) (rand : Nat → ℚ) (ichunk : Nat) : Sent where
  intensity := (List.range (io.eltsPerChunk o)).map (fun i => 20 + 160 / (2 ^ 48 - 1) * rand i)
  weights   := List.replicate (io.eltsPerChunk o) 1
  stride    := o.ntPerPacket.toNat
  fpgaCount := (ichunk * o.ntPerChunk + l.initialTimeIndex) * o.fpgaCountsPerSample % 2 ^ 64

def NoiseIo.sendNoise (io : NoiseIo) (l : L0Params) (o : Ostream) (numSeconds : ℚ) (rand : Nat → Nat → ℚ) :
    Except Fault (List Sent) :=
  if io.targetGbps o > 0 then
    .ok ((List.range (io.nchunks o numSeconds).toNat).map (fun ichunk => io.noiseChunk l o (rand ichunk) ichunk))
  else .error .aborted

/-! ## Views -/

/-- The element of a buffer for a row and a time. -/
def Sent.view (x : Sent) (k : Nat × Nat) : Nat := k.1 * x.stride + k.2

def FrbIo.samples (io : FrbIo) (o : Ostream) : Set (Nat × Nat) :=
  {k | k.1 < io.eltsPerChunk o / o.ntPerChunk.toNat ∧ k.2 < o.ntPerChunk.toNat}

structure FrbIo.SendsOnce (io : FrbIo) (o : Ostream) (x : Sent) : Prop where
  intensity : Set.BijOn x.view (io.samples o) {e | e < x.intensity.length}
  weights   : Set.BijOn x.view (io.samples o) {e | e < x.weights.length}

def Ostream.nrows (o : Ostream) : Nat := o.beamIds.length * (o.coarseFreqIds.length * o.nupfreq.toNat)

theorem sendsOnce_iff {io : FrbIo} {o : Ostream} {x : Sent} (helts : io.eltsPerChunk o = o.nrows * o.ntPerChunk.toNat)
    (hrows : 2 ≤ o.nrows) (hnt : 0 < o.ntPerChunk.toNat) (hi : x.intensity.length = io.eltsPerChunk o)
    (hw : x.weights.length = io.eltsPerChunk o) : io.SendsOnce o x ↔ x.stride = o.ntPerChunk.toNat := by
  have hsamples : io.samples o = {k | k.1 < o.nrows ∧ k.2 < o.ntPerChunk.toNat} := by
    unfold FrbIo.samples
    rw [helts, Nat.mul_div_cancel _ hnt]
  have hbij := @bijOn_stride_iff _ _ x.stride hrows hnt
  rw [← hsamples, ← helts] at hbij
  constructor
  · rintro ⟨hbijOn, -⟩
    rw [hi] at hbijOn
    exact hbij.1 hbijOn
  · intro hstride
    have hbijOn := hbij.2 hstride
    refine ⟨?_, ?_⟩
    · rw [hi]
      exact hbijOn
    · rw [hw]
      exact hbijOn

theorem decodePiece_shape {io : FrbIo} {o : Ostream} {p : AssembledChunk × Nat} {x : Sent}
    (hx : io.decodePiece o p = .ok x) : x.stride = o.ntPerChunk.toNat ∧ x.intensity.length = io.eltsPerChunk o ∧
      x.weights.length = io.eltsPerChunk o := by
  unfold FrbIo.decodePiece at hx
  simp only at hx
  split at hx
  · rename_i intensity weights hi hw
    obtain rfl := Except.ok.inj hx
    refine ⟨rfl, ?_, ?_⟩
    · rw [length_writeAll hi, List.length_replicate]
    · rw [length_writeAll hw, List.length_replicate]
  · cases hx

/-! ## Accepted parameters -/

theorem l0Params_checked {env : L0Env} {gbps : ℚ} {p : Paramfile} {l : L0Params} {R : List String}
    (h : (l0Params env gbps p).run [] = .ok (l, R)) : l.Checked := by
  obtain ⟨l₀, R₀, l₁, l₂, n, streams, -, -, hcheck, hsizes, -, rfl⟩ := l0Params_parts h
  obtain ⟨nb, nt, nf, nu, -, -, -, -, rfl⟩ := deriveSizes_ok hsizes
  exact { checkParams_ok hcheck with }

/-- A thread has several coarse frequencies, as a stream has at most 32 threads. -/
theorem two_le_perThread {l : L0Params} (hw : l.Wired) (hchecked : l.Checked) : 2 ≤ l.nfreqCoarsePerThread := by
  obtain ⟨k, hk, hnthreads⟩ := hchecked.nthreads
  have hperStream : l.nthreadsPerStream = 2 ^ k := by
    apply Int.eq_of_mul_eq_mul_left hw.nstreams_pos.ne'
    rw [← hw.nthreads, hnthreads]
  have hpow : (2 : Int) ^ k ≤ 2 ^ 5 := pow_le_pow_right₀ (by decide) hk
  have hpos := hw.nfreqCoarsePerThread_pos
  have hnfreq : 1024 = l.nthreadsPerStream * l.nfreqCoarsePerThread := hw.nfreq
  by_contra hlt
  have hone : l.nfreqCoarsePerThread = 1 := by omega
  rw [hone, Int.mul_one, hperStream] at hnfreq
  omega

theorem two_le_nrows {l : L0Params} (hw : l.Wired) (hchecked : l.Checked) (hu : 0 < l.nupfreq) (ithread : Nat) :
    2 ≤ (l.makeOstream ithread).nrows := by
  have hthread := two_le_perThread hw hchecked
  have hbeams := hw.nbeamsPerStream_pos
  unfold Ostream.nrows
  rw [length_beamIds_makeOstream, length_coarseFreqIds_makeOstream]
  show 2 ≤ l.nbeamsPerStream.toNat * (l.nfreqCoarsePerThread.toNat * l.nupfreq.toNat)
  calc 2 ≤ l.nfreqCoarsePerThread.toNat := by omega
    _ ≤ l.nfreqCoarsePerThread.toNat * l.nupfreq.toNat := Nat.le_mul_of_pos_right _ (by omega)
    _ ≤ l.nbeamsPerStream.toNat * (l.nfreqCoarsePerThread.toNat * l.nupfreq.toNat) :=
      Nat.le_mul_of_pos_left _ (by omega)

/-- What a thread sends, from either source, is sent once. -/
structure NoiseIo.ViewsOnce (io : NoiseIo) (l : L0Params) (o : Ostream) : Prop where
  noise  : ∀ numSeconds rand sent, io.sendNoise l o numSeconds rand = .ok sent → ∀ x ∈ sent, io.SendsOnce o x
  chunks : ∀ chunks sent, io.sendChunks o chunks = .ok sent → ∀ x ∈ sent, io.SendsOnce o x

theorem viewsOnce_iff {l : L0Params} (hw : l.Wired) (hchecked : l.Checked) (hu : 0 < l.nupfreq) {io : NoiseIo}
    (helts : ∀ o, io.eltsPerChunk o = o.nrows * o.ntPerChunk.toNat) (ithread : Nat) :
    io.ViewsOnce l (l.makeOstream ithread) ↔ io.targetGbps (l.makeOstream ithread) ≤ 0 ∨ l.ntPerPacket = 1024 := by
  have hrows := two_le_nrows hw hchecked hu ithread
  have hnt := ntPerChunk_pos l ithread
  have hnoise : ∀ rand ichunk, io.SendsOnce (l.makeOstream ithread) (io.noiseChunk l (l.makeOstream ithread) rand ichunk) ↔
      l.ntPerPacket = 1024 := by
    intro rand ichunk
    rw [sendsOnce_iff (helts _) hrows hnt (by simp [NoiseIo.noiseChunk]) (by simp [NoiseIo.noiseChunk])]
    show l.ntPerPacket.toNat = 1024 ↔ _
    omega
  constructor
  · intro hviews
    rcases le_or_gt (io.targetGbps (l.makeOstream ithread)) 0 with hgbps | hgbps
    · exact .inl hgbps
    · right
      apply (hnoise (fun _ => 0) 0).1
      refine hviews.noise 0 (fun _ _ => 0) _ (if_pos hgbps) _ ?_
      apply List.mem_map.2
      refine ⟨0, ?_, rfl⟩
      simp [NoiseIo.nchunks]
  · intro hcond
    constructor
    · intro numSeconds rand sent hsent x hx
      unfold NoiseIo.sendNoise at hsent
      split at hsent
      · rename_i hgbps
        obtain rfl := Except.ok.inj hsent
        obtain ⟨ichunk, -, rfl⟩ := List.mem_map.1 hx
        exact (hnoise _ _).2 (hcond.resolve_left (not_le.2 hgbps))
      · cases hsent
    · intro chunks sent hsent x hx
      unfold FrbIo.sendChunks at hsent
      split at hsent
      · obtain ⟨q, -, hq⟩ := mem_of_mapM hsent hx
        obtain ⟨hstride, hi, hweights⟩ := decodePiece_shape hq
        exact (sendsOnce_iff (helts _) hrows hnt hi hweights).2 hstride
      · cases hsent

/-- **The views of a thread** are right if and only if a packet is as long as a chunk, or no noise is sent. -/
theorem views_iff {env : L0Env} {gbps : ℚ} {p : Paramfile} {l : L0Params} {R : List String}
    (h : (l0Params env gbps p).run [] = .ok (l, R)) {io : NoiseIo}
    (helts : ∀ o, io.eltsPerChunk o = o.nrows * o.ntPerChunk.toNat) {ithread : Nat} {o : Ostream}
    (ho : l.streams[ithread]? = some o) : io.ViewsOnce l o ↔ io.targetGbps o ≤ 0 ∨ l.ntPerPacket = 1024 := by
  obtain ⟨hw, -⟩ := l0Params_ok h
  have hu := l0Params_nupfreq h
  obtain ⟨-, rfl⟩ := hw.of_getElem?_streams ho
  exact viewsOnce_iff hw (l0Params_checked h) hu helts ithread

/-! ## Packets of two lengths -/

def noiseIo : NoiseIo := { plainIo with targetGbps := fun _ => 1, nbytesPerChunk := fun _ => 1000000 }

def longPackets : Paramfile where
  filename := "l0.yaml".toList
  nodes    := [("nbeams", scalar 1), ("nthreads", scalar 1), ("ipaddr", text "127.0.0.1".toList), ("port", scalar 6677),
    ("nfreq", scalar 2048), ("nt_per_packet", scalar 1024)]

def longPacketsExample : L0Params × List String := ((l0Params l0Env 1 longPackets).run []).toOption.get (by decide +kernel)

theorem views_longPackets :
    noiseIo.ViewsOnce longPacketsExample.1 (longPacketsExample.1.makeOstream 0) := by
  have hok : (l0Params l0Env 1 longPackets).run [] = .ok (longPacketsExample.1, longPacketsExample.2) :=
    toOption_eq_some.1 (Option.some_get (by decide +kernel)).symm
  obtain ⟨hw, -⟩ := l0Params_ok hok
  exact (views_iff hok (fun _ => rfl) (hw.getElem?_streams (show 0 < longPacketsExample.1.nthreads by decide +kernel))).2
    (.inr (by decide +kernel))

/-- **With packets of 16 samples** rows of noise overlap. -/
theorem not_views_shortPackets : ¬ ∀ (env : L0Env) (gbps : ℚ) (p : Paramfile) (l : L0Params) (R : List String),
    (l0Params env gbps p).run [] = .ok (l, R) → ∀ io : NoiseIo,
      (∀ o, io.eltsPerChunk o = o.nrows * o.ntPerChunk.toNat) → ∀ (ithread : Nat) (o : Ostream),
        l.streams[ithread]? = some o → io.ViewsOnce l o := by
  intro hall
  have hok : (l0Params l0Env 1 l0File).run [] = .ok (l0Example.1, l0Example.2) := l0Example_ok
  obtain ⟨hw, -⟩ := l0Params_ok hok
  have ho := hw.getElem?_streams (show 0 < l0Example.1.nthreads by decide +kernel)
  have hviews := hall _ _ _ _ _ hok noiseIo (fun _ => rfl) 0 _ ho
  rcases (viewsOnce_iff hw (l0Params_checked hok) (l0Params_nupfreq hok) (fun _ => rfl) 0).1 hviews with hgbps | hnt
  · exact absurd hgbps (by decide)
  · exact absurd hnt (by decide +kernel)

end L0
end FrbL1
