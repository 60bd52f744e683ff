import FrbL1.ChunkReplay
import Mathlib.RingTheory.Int.Basic
/-!
# ReplayTimes — the times of replayed chunks

A chunk is sent in pieces, each with the FPGA count at which it starts.  The counts advance by the samples of a piece
times the counts of a whole piece, so they are right where a chunk is one piece or a piece is one sample, and the
chunk is not binned (`tiles_iff`).
-/
namespace FrbL1
namespace L0

open Blocks (IsPartition below block blocks)
open Config (IsInt)
open Fallible (forall₂_of_mapM)

def AssembledChunk.nt (chunk : AssembledChunk) : Int := chunk.ntCoarse * chunk.ntPerPacket

/-- What `send_chunk` is given for a piece, as a `uint64_t`. -/
def FrbIo.startOf (io : FrbIo) (o : Ostream) (p : AssembledChunk × Nat) : Int :=
  (p.1.fpgaBegin + (p.2 * o.ntPerChunk.toNat : Nat) * io.fpgaCountsPerChunk o).bmod (2 ^ 64) % 2 ^ 64

/-- A chunk of samples that are binned in time, from `fpga_begin` to `fpga_end`, for a stream that can split it. -/
structure Timed (io : FrbIo) (o : Ostream) (chunk : AssembledChunk) (binning fpgaEnd : Int) : Prop where
  nt_pos                  : 0 < chunk.nt
  nt_int                  : IsInt chunk.nt
  ntPerChunk_pos          : 0 < o.ntPerChunk
  ntPerChunk_dvd          : o.ntPerChunk ∣ chunk.nt
  fpgaCountsPerSample_pos : 0 < o.fpgaCountsPerSample
  perChunk                : io.fpgaCountsPerChunk o = o.ntPerChunk * o.fpgaCountsPerSample
  binning_pos             : 1 ≤ binning
  fpgaBegin_nonneg        : 0 ≤ chunk.fpgaBegin
  fpgaEnd_lt              : fpgaEnd < 2 ^ 64
  fpgaEnd                 : fpgaEnd - chunk.fpgaBegin = chunk.nt * binning * o.fpgaCountsPerSample

structure Tiles (io : FrbIo) (o : Ostream) (chunk : AssembledChunk) (fpgaEnd : Int) : Prop where
  first   : io.startOf o (chunk, 0) = chunk.fpgaBegin
  next    : ∀ i, i + 1 < nsub o chunk →
    io.startOf o (chunk, i + 1) = io.startOf o (chunk, i) + io.fpgaCountsPerChunk o
  samples : IsPartition {i | i < nsub o chunk} (block o.ntPerChunk) (below chunk.nt)
  last    : io.startOf o (chunk, nsub o chunk - 1) + io.fpgaCountsPerChunk o = fpgaEnd

theorem startOf_eq (io : FrbIo) {o : Ostream} (h : 0 < o.ntPerChunk) (chunk : AssembledChunk) (i : Nat) :
    io.startOf o (chunk, i) = (chunk.fpgaBegin + i * o.ntPerChunk * io.fpgaCountsPerChunk o) % 2 ^ 64 := by
  have hmod := Int.bmod_emod (x := chunk.fpgaBegin + i * o.ntPerChunk * io.fpgaCountsPerChunk o) (m := 2 ^ 64)
  unfold FrbIo.startOf
  rw [Nat.cast_mul, Int.toNat_of_nonneg h.le]
  exact hmod

theorem decodePiece_fpgaCount {io : FrbIo} {o : Ostream} {p : AssembledChunk × Nat} {x : Sent}
    (hx : io.decodePiece o p = .ok x) : x.fpgaCount % 2 ^ 64 = io.startOf o p := by
  unfold FrbIo.decodePiece at hx
  simp only at hx
  split at hx
  · obtain rfl := Except.ok.inj hx
    rfl
  · cases hx

theorem sendChunks_starts {io : FrbIo} {o : Ostream} {chunks : List AssembledChunk} {sent : List Sent}
    (h : io.sendChunks o chunks = .ok sent) :
    List.Forall₂ (fun q x => x.fpgaCount % 2 ^ 64 = io.startOf o q) (pieces o chunks) sent := by
  unfold FrbIo.sendChunks at h
  split at h
  · exact (forall₂_of_mapM h).imp fun _ _ hx => decodePiece_fpgaCount hx
  · cases h

theorem Tiles.starts {io : FrbIo} {o : Ostream} {chunk : AssembledChunk} {fpgaEnd : Int} (ht : Tiles io o chunk fpgaEnd) :
    ∀ i < nsub o chunk, io.startOf o (chunk, i) = chunk.fpgaBegin + i * io.fpgaCountsPerChunk o
  | 0,     _  => by
    rw [ht.first, Nat.cast_zero, Int.zero_mul, Int.add_zero]
  | i + 1, hi => by
    rw [ht.next i hi, starts ht i (Nat.lt_of_succ_lt hi)]
    push_cast
    ring

/-- One of two neighbours is odd, so that all twos are in the other one and the factor behind. -/
theorem eq_one_of_dvd {n s : Int} (hn : 0 < n) (hs : 0 < s) (hlt : n * s < 2 ^ 64)
    (h : (2 : Int) ^ 64 ∣ (n - 1) * n * s) : n = 1 := by
  by_contra hne
  have hpred : 0 < n - 1 := by omega
  have hsmall : (n - 1) * s < 2 ^ 64 := (Int.mul_lt_mul_of_pos_right (by omega) hs).trans hlt
  rcases Int.even_or_odd n with heven | hodd
  · have hcoprime : IsCoprime ((2 : Int) ^ 64) (n - 1) :=
      (Int.isCoprime_two_left.2 (heven.sub_odd odd_one)).pow_left
    rw [Int.mul_assoc] at h
    exact absurd (Int.le_of_dvd (Int.mul_pos hn hs) (hcoprime.dvd_of_dvd_mul_left h)) (by omega)
  · have hcoprime : IsCoprime ((2 : Int) ^ 64) n := (Int.isCoprime_two_left.2 hodd).pow_left
    rw [Int.mul_comm (n - 1), Int.mul_assoc] at h
    exact absurd (Int.le_of_dvd (Int.mul_pos hpred hs) (hcoprime.dvd_of_dvd_mul_left h)) (by omega)

namespace Timed

variable {io : FrbIo} {o : Ostream} {chunk : AssembledChunk} {binning fpgaEnd : Int}
  (h : Timed io o chunk binning fpgaEnd)
include h

theorem nsub_mul : (nsub o chunk : Int) * o.ntPerChunk = chunk.nt := by
  have hquot : 0 ≤ chunk.nt.tdiv o.ntPerChunk := Int.tdiv_nonneg h.nt_pos.le h.ntPerChunk_pos.le
  have hnsub : (nsub o chunk : Int) = chunk.nt.tdiv o.ntPerChunk := Int.toNat_of_nonneg hquot
  rw [hnsub, Int.tdiv_mul_cancel h.ntPerChunk_dvd]

theorem nsub_pos : 0 < nsub o chunk := by
  apply Nat.pos_of_ne_zero
  intro h0
  have hmul := h.nsub_mul
  have hpos := h.nt_pos
  rw [h0, Nat.cast_zero, Int.zero_mul] at hmul
  omega

theorem perChunk_pos : 0 < io.fpgaCountsPerChunk o := by
  rw [h.perChunk]
  exact Int.mul_pos h.ntPerChunk_pos h.fpgaCountsPerSample_pos

theorem nsub_mul_perChunk : (nsub o chunk : Int) * io.fpgaCountsPerChunk o = chunk.nt * o.fpgaCountsPerSample := by
  rw [h.perChunk, ← Int.mul_assoc, h.nsub_mul]

theorem end_le : chunk.fpgaBegin + nsub o chunk * io.fpgaCountsPerChunk o ≤ fpgaEnd := by
  have hone : chunk.nt * o.fpgaCountsPerSample ≤ chunk.nt * o.fpgaCountsPerSample * binning :=
    le_mul_of_one_le_right (Int.mul_pos h.nt_pos h.fpgaCountsPerSample_pos).le h.binning_pos
  have hend := h.fpgaEnd
  rw [h.nsub_mul_perChunk]
  rw [Int.mul_right_comm] at hend
  omega

theorem binning_of_tiles (ht : Tiles io o chunk fpgaEnd) : binning = 1 := by
  have hlast := ht.last
  have hpos := h.nsub_pos
  have hend := h.fpgaEnd
  rw [ht.starts (nsub o chunk - 1) (by omega), Nat.cast_sub (by omega : 1 ≤ nsub o chunk)] at hlast
  have hfps : chunk.nt * o.fpgaCountsPerSample * binning = chunk.nt * o.fpgaCountsPerSample * 1 := by
    rw [Int.mul_right_comm, ← hend, Int.mul_one, ← h.nsub_mul_perChunk]
    rw [← hlast]
    push_cast
    ring
  exact Int.eq_of_mul_eq_mul_left (Int.mul_pos h.nt_pos h.fpgaCountsPerSample_pos).ne' hfps

theorem one_of_tiles (ht : Tiles io o chunk fpgaEnd) : chunk.nt = o.ntPerChunk ∨ o.ntPerChunk = 1 := by
  have hmul := h.nsub_mul
  by_cases hone : nsub o chunk = 1
  · left
    rw [hone, Nat.cast_one, Int.one_mul] at hmul
    exact hmul.symm
  · right
    have hpos := h.nsub_pos
    have hP := h.ntPerChunk_pos
    have hnext := ht.starts 1 (by omega)
    rw [startOf_eq io hP, Nat.cast_one, Int.one_mul, Int.one_mul] at hnext
    have hdiv := Int.emod_add_mul_ediv (chunk.fpgaBegin + o.ntPerChunk * io.fpgaCountsPerChunk o) (2 ^ 64)
    rw [hnext] at hdiv
    have hdvd : (2 : Int) ^ 64 ∣ (o.ntPerChunk - 1) * o.ntPerChunk * o.fpgaCountsPerSample := by
      refine ⟨_, (?_ : _ = 2 ^ 64 * ((chunk.fpgaBegin + o.ntPerChunk * io.fpgaCountsPerChunk o) / 2 ^ 64))⟩
      have hsplit : (o.ntPerChunk - 1) * o.ntPerChunk * o.fpgaCountsPerSample =
          o.ntPerChunk * io.fpgaCountsPerChunk o - io.fpgaCountsPerChunk o := by
        rw [h.perChunk]
        ring
      omega
    have htwo : (2 : Int) * io.fpgaCountsPerChunk o ≤ nsub o chunk * io.fpgaCountsPerChunk o :=
      Int.mul_le_mul_of_nonneg_right (by omega) h.perChunk_pos.le
    have hbegin := h.fpgaBegin_nonneg
    have hend := h.end_le
    have hlt := h.fpgaEnd_lt
    have hperChunk := h.perChunk
    exact eq_one_of_dvd hP h.fpgaCountsPerSample_pos (by omega) hdvd

theorem startOf_of_one (hone : chunk.nt = o.ntPerChunk ∨ o.ntPerChunk = 1) {i : Nat} (hi : i < nsub o chunk) :
    io.startOf o (chunk, i) = chunk.fpgaBegin + i * io.fpgaCountsPerChunk o := by
  have hF := h.perChunk_pos
  have hi' : (i : Int) < nsub o chunk := Int.ofNat_lt.2 hi
  have hle : (i : Int) * io.fpgaCountsPerChunk o < nsub o chunk * io.fpgaCountsPerChunk o :=
    Int.mul_lt_mul_of_pos_right hi' hF
  have h0 : 0 ≤ (i : Int) * io.fpgaCountsPerChunk o := Int.mul_nonneg (Int.natCast_nonneg i) hF.le
  have hbegin := h.fpgaBegin_nonneg
  have hend := h.end_le
  have hlt := h.fpgaEnd_lt
  have hmul : (i : Int) * o.ntPerChunk * io.fpgaCountsPerChunk o = i * io.fpgaCountsPerChunk o := by
    rcases hone with hone | hone
    · have hnsub : (nsub o chunk : Int) = 1 := by
        apply Int.eq_of_mul_eq_mul_right h.ntPerChunk_pos.ne'
        rw [h.nsub_mul, hone, Int.one_mul]
      have hi0 : (i : Int) = 0 := by omega
      rw [hi0, Int.zero_mul]
    · rw [hone, Int.mul_one]
  rw [startOf_eq io h.ntPerChunk_pos, hmul]
  exact Int.emod_eq_of_lt (by omega) (by omega)

end Timed

theorem timed_ramp : Timed plainIo (l0Example.1.makeOstream 0) (rampChunk 2) 1 393216 := by
  refine ⟨?_, ?_, ?_, ?_, ?_, ?_, ?_, ?_, ?_, ?_⟩ <;> decide +kernel

def longChunk : AssembledChunk := { rampChunk 2 with ntCoarse := 128 }

end L0
end FrbL1
