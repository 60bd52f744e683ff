import FrbL1.IntArith
import FrbL1.L1Buffers
import Mathlib.Tactic.Ring
/-!
# L1Overflow — the derived parameters in 32 bits

The derived parameters of the L1 configuration as the code computes them, with `int`s that can overflow.  They are those
of `deriveParams` where none does (`yields_derive`), and no check of the constructor sees to it (`derive_ok_iff`).
-/
namespace FrbL1
namespace Config

open IntArith
open Rounding

/-! ## The computation -/

/-- `packet_size`, for a header of so many bytes. -/
def intPacketSize (header nb n nu nt : Int) : Except Fault Int := do
  let beams ← mul IsInt 2 nb
  let coarse ← mul IsInt 2 n
  let pairs ← mul IsInt 8 nb
  let pairs ← mul IsInt pairs n
  let data ← mul IsInt nb n
  let data ← mul IsInt data nu
  let data ← mul IsInt data nt
  let size ← add IsInt header beams
  let size ← add IsInt size coarse
  let size ← add IsInt size pairs
  add IsInt size data

structure Unassembled where
  unassembledRingbufCapacity : Int
  unassembledNbytesPerList   : Int
  unassembledNpacketsPerList : Int
  deriving DecidableEq

def intUnassembled (header : Int) (c : L1Config) : Except Fault Unassembled := do
  let fp ← mul IsInt c.ntPerPacket c.fpgaCountsPerSample
  let np ← div IsInt 40000 fp
  let np ← add IsInt np 1
  let nbeams ← div IsInt c.nbeams c.nstreams
  let nupfreq ← div IsInt c.nfreq nfreqCoarseTot
  let nb ← intPacketSize header nbeams 1 nupfreq c.ntPerPacket
  let nt ← mul IsInt np c.ntPerPacket
  let capacity ← div IsInt c.unassembledRingbufNsamples nt
  let capacity ← add IsInt capacity 1
  let nbytes ← mul IsInt np nfreqCoarseTot
  let nbytes ← mul IsInt nbytes nb
  let npackets ← mul IsInt np nfreqCoarseTot
  return ⟨capacity, nbytes, npackets⟩

/-- What is printed, if `l1_verbosity` asks for it. -/
def printNchunks (verbose : Bool) (n ntC : Int) : Except Fault Unit :=
  if verbose then mul IsInt n ntC >>= fun _ => .ok () else .ok ()

def intNchunks (verbose : Bool) (nsamples ntC : Int) : Except Fault Int := do
  let n ← add IsInt nsamples ntC
  let n ← sub IsInt n 1
  let n ← div IsInt n ntC
  printNchunks verbose (max n 2) ntC
  return max n 2

/-- The levels of the telescoping ring buffer, from level `i` on. -/
def intTelescoping (verbose : Bool) : Nat → List Int → Except Fault (List Int)
  | _, []      => .ok []
  | i, n :: ns => do
    let ntC ← mul IsInt (2 ^ i) ntPerAssembledChunk
    let k ← intNchunks verbose n ntC
    let ks ← intTelescoping verbose (i + 1) ns
    return k :: ks

def intFudgeFactor (telescoping : List Int) : Except Fault Int :=
  match telescoping with
  | []     => .ok 4
  | n :: _ => sub IsInt 4 n >>= fun d => .ok (max d 0)

def intLiveChunks (assembled : Int) (telescoping : List Int) : Except Fault Int := do
  let live ← add IsInt 2 assembled
  let live ← telescoping.foldlM (add IsInt) live
  let fudgeFactor ← intFudgeFactor telescoping
  add IsInt live fudgeFactor

def intSlabs (c : L1Config) (assembled : Int) (telescoping : List Int) : Except Fault Int := do
  let live ← intLiveChunks assembled telescoping
  let ofBeams ← mul IsInt c.nbeams live
  let ofStreams ← mul IsInt c.nstreams (max 1 (telescoping.length : Int))
  add IsInt ofBeams ofStreams

structure Derived where
  unassembled               : Unassembled
  assembledRingbufNchunks   : Int
  telescopingRingbufNchunks : List Int
  slabs                     : Int
  deriving DecidableEq

def intDerive (header : Int) (verbose : Bool) (c : L1Config) : Except Fault Derived := do
  let unassembled ← intUnassembled header c
  let assembled ← intNchunks verbose c.assembledRingbufNsamples ntPerAssembledChunk
  let telescoping ← intTelescoping verbose 0 c.telescopingRingbufNsamples
  let slabs ← intSlabs c assembled telescoping
  return ⟨unassembled, assembled, telescoping, slabs⟩

def L1Config.derived (c : L1Config) : Derived where
  unassembled := ⟨c.unassembledRingbufCapacity, c.unassembledNbytesPerList, c.unassembledNpacketsPerList⟩
  assembledRingbufNchunks := c.assembledRingbufNchunks
  telescopingRingbufNchunks := c.telescopingRingbufNchunks
  slabs := c.nbeams * liveChunksPerBeam c + c.nstreams * c.temporaryChunksPerStream

/-! ## What fits -/

/-- The chunks of a beam, from the samples that were asked for. -/
def L1Config.liveChunks (c : L1Config) : Int :=
  2 + max (roundUp c.assembledRingbufNsamples ntPerAssembledChunk) 2 +
    (c.telescopingRingbufNsamples.mapIdx (fun i n => max (roundUp n (2 ^ i * ntPerAssembledChunk)) 2)).sum +
    match c.telescopingRingbufNsamples with
    | []     => 4
    | n :: _ => max (4 - max (roundUp n ntPerAssembledChunk) 2) 0

/-- The configurations whose derived parameters fit. -/
structure L1Config.Bounded (header : Int) (c : L1Config) : Prop where
  fp          : c.ntPerPacket * c.fpgaCountsPerSample < 2 ^ 31
  capacity    : ¬ (c.unassembledRingbufNsamples = 2 ^ 31 - 1 ∧ c.ntPerPacket = 1 ∧ 40000 < c.fpgaCountsPerSample)
  nbytes      : (40000 / (c.ntPerPacket * c.fpgaCountsPerSample) + 1) * 1024 *
    (header + 10 * (c.nbeams / c.nstreams) + 2 + c.nbeams / c.nstreams * (c.nfreq / 1024) * c.ntPerPacket) < 2 ^ 31
  assembled   : c.assembledRingbufNsamples + 1024 < 2 ^ 31
  telescoping : ∀ (i : Nat) n, c.telescopingRingbufNsamples[i]? = some n → n + 2 ^ i * 1024 < 2 ^ 31
  slabs       : c.nbeams * c.liveChunks + c.nstreams * max 1 (c.telescopingRingbufNsamples.length : Int) < 2 ^ 31

theorem IsInt.of_le {m n : Int} (h0 : 0 ≤ m) (hmn : m ≤ n) (hn : IsInt n) : IsInt m := by
  unfold IsInt at hn ⊢
  omega

theorem isInt_iff {n : Int} (h0 : 0 ≤ n) : IsInt n ↔ n < 2 ^ 31 := by
  unfold IsInt
  omega

/-- A sum of sizes fits if the whole does. -/
theorem yields_packetSize {header nb n nu nt : Int} (hheader : 0 ≤ header) (hnb : 0 < nb) (hn : 0 < n) (hnu : 0 < nu)
    (hnt : 0 < nt) : Yields (intPacketSize header nb n nu nt)
      (IsInt (header + 2 * nb + 2 * n + 8 * nb * n + nb * n * nu * nt))
      (header + 2 * nb + 2 * n + 8 * nb * n + nb * n * nu * nt) := by
  have hpairs : 8 * nb ≤ 8 * nb * n := le_mul_of_one_le_right (by omega) hn
  have hdata₀ : 0 < nb * n := Int.mul_pos hnb hn
  have hdata₁ : nb * n ≤ nb * n * nu := le_mul_of_one_le_right hdata₀.le hnu
  have hdata₂ : nb * n * nu ≤ nb * n * nu * nt := le_mul_of_one_le_right (hdata₀.le.trans hdata₁) hnt
  apply Yields.congr
  · iterate 7
      apply (yields_mul _ _).bind
      intro _
    iterate 3
      apply (yields_add _ _).bind
      intro _
    exact yields_add _ _
  · unfold IsInt
    omega

theorem yields_printNchunks (verbose : Bool) {n ntC : Int} (h : IsInt (n * ntC)) :
    Yields (printNchunks verbose n ntC) True () := by
  unfold printNchunks
  split
  · exact ((yields_mul n ntC).map fun _ => ()).congr (iff_true_intro h)
  · exact yields_ok ()

theorem nchunks_mul_fits {nsamples ntC : Int} (hn : 0 < nsamples) (hntC : 0 < ntC) (hntC' : 2 * ntC < 2 ^ 31)
    (h : IsInt (nsamples + ntC)) : IsInt (nchunks nsamples ntC * ntC) := by
  have hlt : nsamples + ntC < 2 ^ 31 := h.2
  have hround := roundUp_mul_lt (n := nsamples) hntC
  have hleast := isLeast_nchunks hn hntC
  have h0 : 0 ≤ nchunks nsamples ntC * ntC := hn.le.trans hleast.1.2
  rw [isInt_iff h0]
  unfold nchunks at h0 ⊢
  rw [tdiv_eq_roundUp hn hntC] at h0 ⊢
  rcases max_choice (roundUp nsamples ntC) 2 with hmax | hmax
  · rw [hmax]
    omega
  · rw [hmax]
    exact hntC'

theorem yields_nchunks (verbose : Bool) {nsamples ntC : Int} (hn : 0 < nsamples) (hntC : 0 < ntC)
    (hntC' : 2 * ntC < 2 ^ 31) :
    Yields (intNchunks verbose nsamples ntC) (IsInt (nsamples + ntC)) (nchunks nsamples ntC) := by
  have hpos : 0 ≤ nsamples + ntC - 1 := by omega
  have hquot : (nsamples + ntC - 1).tdiv ntC ≤ nsamples + ntC - 1 := Int.tdiv_le_self _ hpos
  have hquot0 : 0 ≤ (nsamples + ntC - 1).tdiv ntC := Int.tdiv_nonneg hpos hntC.le
  apply Yields.congr
  · apply (yields_add _ _).bind
    intro hfits
    apply (yields_sub _ _).bind
    intro _
    apply (yields_div _ hntC.ne').bind
    intro _
    apply (yields_printNchunks verbose (nchunks_mul_fits hn hntC hntC' hfits)).bind
    intro _
    exact yields_ok _
  · constructor
    · rintro ⟨hfits, -⟩
      exact hfits
    · intro hfits
      have hsub : IsInt (nsamples + ntC - 1) := hfits.of_le hpos (by omega)
      exact ⟨hfits, hsub, hsub.of_le hquot0 hquot, trivial, trivial⟩

theorem forall_getElem?_cons {α : Type} {P : Nat → α → Prop} {a : α} {l : List α} :
    (∀ (i : Nat) b, (a :: l)[i]? = some b → P i b) ↔ P 0 a ∧ ∀ (i : Nat) b, l[i]? = some b → P (i + 1) b := by
  constructor
  · intro h
    exact ⟨h 0 a rfl, fun i b hb => h (i + 1) b hb⟩
  · rintro ⟨h0, h⟩ i b hb
    cases i with
    | zero => exact Option.some.inj hb ▸ h0
    | succ i => exact h i b hb

theorem yields_telescoping (verbose : Bool) : ∀ (ns : List Int) (i : Nat), (∀ n ∈ ns, 0 < n) → i + ns.length ≤ 4 →
    Yields (intTelescoping verbose i ns)
      (∀ (j : Nat) n, ns[j]? = some n → IsInt (n + 2 ^ (i + j) * ntPerAssembledChunk))
      (ns.mapIdx fun j n => nchunks n (2 ^ (i + j) * ntPerAssembledChunk))
  | [],      _, _,    _    => (yields_ok _).congr (iff_of_true trivial fun j n hn => nomatch hn)
  | n :: ns, i, hpos, hlen => by
    obtain ⟨hn, hns⟩ := List.forall_mem_cons.1 hpos
    have hi : i ≤ 3 := by
      rw [List.length_cons] at hlen
      omega
    have hpow : (1 : Int) ≤ 2 ^ i ∧ (2 : Int) ^ i ≤ 2 ^ 3 :=
      ⟨one_le_pow₀ (by decide), pow_le_pow_right₀ (by decide) hi⟩
    have hntC : IsInt (2 ^ i * ntPerAssembledChunk) := by
      unfold IsInt ntPerAssembledChunk
      omega
    have hrest := yields_telescoping verbose ns (i + 1) hns (by rw [List.length_cons] at hlen; omega)
    rw [List.mapIdx_cons]
    simp only [Nat.add_right_comm _ 1, Nat.add_zero] at hrest ⊢
    apply Yields.congr
    · apply (yields_mul _ _).bind
      intro _
      apply (yields_nchunks verbose hn (by unfold ntPerAssembledChunk; omega) (by unfold ntPerAssembledChunk; omega)).bind
      intro _
      exact hrest.map _
    · rw [forall_getElem?_cons]
      exact ⟨fun h => h.2, fun h => ⟨hntC, h⟩⟩

theorem nchunks_bounds {nsamples ntC : Int} (hn : 0 < nsamples) (hntC : 1024 ≤ ntC) (h : IsInt (nsamples + ntC)) :
    2 ≤ nchunks nsamples ntC ∧ nchunks nsamples ntC ≤ 2 ^ 21 := by
  have hlt : nsamples + ntC < 2 ^ 31 := h.2
  have hleast := isLeast_nchunks hn (by omega : 0 < ntC)
  refine ⟨hleast.1.1, hleast.2 ⟨by decide, ?_⟩⟩
  omega

theorem yields_foldlM_add : ∀ (ks : List Int) (live : Int), 0 ≤ live → (∀ k ∈ ks, 0 ≤ k) → live + ks.sum < 2 ^ 31 →
    Yields (ks.foldlM (add IsInt) live) True (live + ks.sum)
  | [],      live, _,  _,   _    => by
    rw [List.sum_nil, Int.add_zero]
    exact yields_ok live
  | k :: ks, live, h0, hks, hsum => by
    obtain ⟨hk, hks⟩ := List.forall_mem_cons.1 hks
    have hrest : 0 ≤ ks.sum := List.sum_nonneg hks
    rw [List.sum_cons, ← Int.add_assoc] at hsum ⊢
    have hfits : IsInt (live + k) := (isInt_iff (Int.add_nonneg h0 hk)).2 (by omega)
    rw [List.foldlM_cons]
    apply Yields.congr
    · apply (yields_add _ _).bind
      intro _
      exact yields_foldlM_add ks (live + k) (Int.add_nonneg h0 hk) hks hsum
    · exact ⟨fun _ => trivial, fun _ => ⟨hfits, trivial⟩⟩

structure L1Config.FewChunks (c : L1Config) : Prop where
  assembled          : 0 ≤ c.assembledRingbufNchunks ∧ c.assembledRingbufNchunks ≤ 2 ^ 21
  telescoping        : ∀ k ∈ c.telescopingRingbufNchunks, 2 ≤ k ∧ k ≤ 2 ^ 21
  telescoping_length : c.telescopingRingbufNchunks.length ≤ 4

namespace L1Config.FewChunks

variable {c : L1Config} (h : c.FewChunks)
include h

theorem sum_telescoping : 0 ≤ c.telescopingRingbufNchunks.sum ∧ c.telescopingRingbufNchunks.sum ≤ 4 * 2 ^ 21 := by
  constructor
  · apply List.sum_nonneg
    intro k hk
    have hk2 := (h.telescoping k hk).1
    omega
  · have hsum := List.sum_le_card_nsmul c.telescopingRingbufNchunks (2 ^ 21) (fun k hk => (h.telescoping k hk).2)
    have hlen := h.telescoping_length
    rw [nsmul_eq_mul] at hsum
    omega

theorem yields_fudgeFactor : Yields (intFudgeFactor c.telescopingRingbufNchunks) True
    (match c.telescopingRingbufNchunks with | [] => 4 | n :: _ => max (4 - n) 0) := by
  have htelescoping := h.telescoping
  unfold intFudgeFactor
  split
  · exact yields_ok 4
  · rename_i n ns heq
    have hn := htelescoping n (heq ▸ List.mem_cons_self)
    apply Yields.congr
    · exact (yields_sub 4 n).map _
    · apply iff_true_intro
      unfold IsInt
      omega

theorem liveChunksPerBeam_bounds : 0 ≤ liveChunksPerBeam c ∧ liveChunksPerBeam c < 2 ^ 31 := by
  have hassembled := h.assembled
  have hsum := h.sum_telescoping
  have htelescoping := h.telescoping
  unfold liveChunksPerBeam
  simp only
  split
  · omega
  · rename_i n ns heq
    have hn := htelescoping n (heq ▸ List.mem_cons_self)
    omega

theorem yields_liveChunks :
    Yields (intLiveChunks c.assembledRingbufNchunks c.telescopingRingbufNchunks) True (liveChunksPerBeam c) := by
  have hassembled := h.assembled
  have hsum := h.sum_telescoping
  have hlive := h.liveChunksPerBeam_bounds
  apply Yields.congr
  · apply (yields_add _ _).bind
    intro _
    apply (yields_foldlM_add _ _ (by omega) (fun k hk => ?_) (by omega)).bind
    · intro _
      apply h.yields_fudgeFactor.bind
      intro _
      exact yields_add _ _
    · have hk2 := (h.telescoping k hk).1
      omega
  · refine ⟨fun _ => trivial, fun _ => ⟨?_, trivial, trivial, (isInt_iff hlive.1).2 hlive.2⟩⟩
    unfold IsInt
    omega

theorem yields_slabs (hnbeams : 0 < c.nbeams) (hnstreams : 0 < c.nstreams) :
    Yields (intSlabs c c.assembledRingbufNchunks c.telescopingRingbufNchunks)
      (c.nbeams * liveChunksPerBeam c + c.nstreams * c.temporaryChunksPerStream < 2 ^ 31)
      (c.nbeams * liveChunksPerBeam c + c.nstreams * c.temporaryChunksPerStream) := by
  have hbeams : 0 ≤ c.nbeams * liveChunksPerBeam c := Int.mul_nonneg hnbeams.le h.liveChunksPerBeam_bounds.1
  have hstreams : 0 ≤ c.nstreams * c.temporaryChunksPerStream :=
    Int.mul_nonneg hnstreams.le (zero_le_one.trans (le_max_left _ _))
  apply Yields.congr
  · apply h.yields_liveChunks.bind
    intro _
    apply (yields_mul _ _).bind
    intro _
    apply (yields_mul _ _).bind
    intro _
    exact yields_add _ _
  · show _ ∧ _ ∧ IsInt (c.nstreams * c.temporaryChunksPerStream) ∧
      IsInt (c.nbeams * liveChunksPerBeam c + c.nstreams * c.temporaryChunksPerStream) ↔ _
    rw [true_and]
    unfold IsInt
    omega

end L1Config.FewChunks

theorem L1Config.np_le (c : L1Config) : c.np ≤ 40001 := by
  have hle := Int.tdiv_le_self (a := 40000) (c.ntPerPacket * c.fpgaCountsPerSample) (by decide)
  unfold L1Config.np
  omega

namespace L1Config.Sane

variable {c : L1Config} {n : Int} (h : c.Sane n)
include h

/-- There is one packet in a list if it spans the time window. -/
theorem np_eq_one_iff : c.np = 1 ↔ 40000 < c.ntPerPacket * c.fpgaCountsPerSample := by
  have hdiv := Int.lt_ediv_iff_mul_lt (a := 0) (b := 40000) h.fp_pos
  have hle : (40000 : Int) / (c.ntPerPacket * c.fpgaCountsPerSample) < 1 ↔
      40000 < 1 * (c.ntPerPacket * c.fpgaCountsPerSample) := Int.ediv_lt_iff_lt_mul h.fp_pos
  have hnp := h.np_pos
  unfold L1Config.np at hnp ⊢
  rw [Int.tdiv_eq_ediv_of_nonneg (by decide)] at hnp ⊢
  omega

theorem np_mul_nt_fits (hfp : c.ntPerPacket * c.fpgaCountsPerSample < 2 ^ 31) : IsInt (c.np * c.ntPerPacket) := by
  have hnt := h.ntPerPacket_pos
  have hle : c.ntPerPacket ≤ c.ntPerPacket * c.fpgaCountsPerSample :=
    le_mul_of_one_le_right hnt.le h.fpgaCountsPerSample_pos
  rw [isInt_iff (Int.mul_nonneg h.np_pos.le hnt.le)]
  by_cases hone : c.np = 1
  · rw [hone]
    omega
  · have hshort : c.ntPerPacket ≤ 40000 := by
      rw [h.np_eq_one_iff] at hone
      omega
    calc c.np * c.ntPerPacket ≤ 40001 * 40000 := Int.mul_le_mul c.np_le hshort hnt.le (by decide)
      _ < 2 ^ 31 := by decide

/-- The capacity overflows only where each sample has its own list. -/
theorem capacity_fits_iff (hint : IsInt c.unassembledRingbufNsamples) :
    IsInt (c.unassembledRingbufNsamples.tdiv (c.np * c.ntPerPacket) + 1) ↔
      ¬ (c.unassembledRingbufNsamples = 2 ^ 31 - 1 ∧ c.ntPerPacket = 1 ∧ 40000 < c.fpgaCountsPerSample) := by
  have hnt := h.ntPerPacket_pos
  have hnp := h.np_pos
  have hns := h.unassembledRingbufNsamples_pos
  have hlt : c.unassembledRingbufNsamples < 2 ^ 31 := hint.2
  have hquot : 0 ≤ c.unassembledRingbufNsamples.tdiv (c.np * c.ntPerPacket) :=
    Int.tdiv_nonneg hns.le (Int.mul_pos hnp hnt).le
  rw [isInt_iff (by omega)]
  by_cases hone : c.np * c.ntPerPacket = 1
  · have hnt1 : c.ntPerPacket = 1 := by
      have hle : c.ntPerPacket ≤ c.np * c.ntPerPacket := le_mul_of_one_le_left hnt.le hnp
      omega
    have hnp1 : c.np = 1 := by
      rw [hnt1, Int.mul_one] at hone
      exact hone
    have hfps := h.np_eq_one_iff.1 hnp1
    rw [hnt1, Int.one_mul] at hfps
    rw [hone, Int.tdiv_one]
    omega
  · have htwo : 2 ≤ c.np * c.ntPerPacket := by
      have hpos := Int.mul_pos hnp hnt
      omega
    have hhalf : c.unassembledRingbufNsamples.tdiv (c.np * c.ntPerPacket) ≤ 2 ^ 30 := by
      rw [Int.tdiv_eq_ediv_of_nonneg hns.le]
      apply Int.ediv_le_of_le_mul (by omega)
      omega
    refine iff_of_true (by omega) ?_
    rintro ⟨-, hnt1, hfps⟩
    apply hone
    rw [hnt1, Int.mul_one, h.np_eq_one_iff, hnt1, Int.one_mul]
    exact hfps

end L1Config.Sane

theorem yields_unassembled {env : Env} {header : Nat} {c : L1Config} {n : Int} (h : c.Sane n)
    (hsize : ∀ nb n nu nt,
      env.packetSize nb n nu nt = header + 2 * nb + 2 * n + 8 * nb * n + nb * n * nu * nt)
    (hint : IsInt c.unassembledRingbufNsamples) :
    Yields (intUnassembled header c)
      (c.ntPerPacket * c.fpgaCountsPerSample < 2 ^ 31 ∧
        ¬ (c.unassembledRingbufNsamples = 2 ^ 31 - 1 ∧ c.ntPerPacket = 1 ∧ 40000 < c.fpgaCountsPerSample) ∧
        c.np * nfreqCoarseTot *
          env.packetSize (c.nbeams.tdiv c.nstreams) 1 (c.nfreq.tdiv nfreqCoarseTot) c.ntPerPacket < 2 ^ 31)
      (deriveParams env c).derived.unassembled := by
  have hnt := h.ntPerPacket_pos
  have hfps := h.fpgaCountsPerSample_pos
  have hfp := h.fp_pos
  have hnp := h.np_pos
  obtain ⟨hb, hnu⟩ := h.shares_pos
  apply Yields.congr
  · apply (yields_mul _ _).bind
    intro _
    apply (yields_div _ hfp.ne').bind
    intro _
    apply (yields_add _ _).bind
    intro _
    apply (yields_div _ h.nstreams_pos.ne').bind
    intro _
    apply (yields_div _ (by decide)).bind
    intro _
    apply (yields_packetSize (Int.natCast_nonneg header) hb one_pos hnu hnt).bind
    intro _
    rw [← hsize]
    apply (yields_mul _ _).bind
    intro _
    apply (yields_div _ (Int.mul_pos hnp hnt).ne').bind
    intro _
    apply (yields_add _ _).bind
    intro _
    apply (yields_mul _ _).bind
    intro _
    apply (yields_mul _ _).bind
    intro _
    apply (yields_mul _ _).bind
    intro _
    exact yields_ok _
  · have hnp' := c.np_le
    have hquot : 0 ≤ (40000 : Int).tdiv (c.ntPerPacket * c.fpgaCountsPerSample) := Int.tdiv_nonneg (by decide) hfp.le
    have hnpackets : IsInt (c.np * nfreqCoarseTot) := by
      unfold IsInt nfreqCoarseTot
      omega
    have hdata : 0 < c.nbeams.tdiv c.nstreams * 1 * c.nfreq.tdiv nfreqCoarseTot * c.ntPerPacket :=
      Int.mul_pos (Int.mul_pos (by omega) hnu) hnt
    have hbytes := hsize (c.nbeams.tdiv c.nstreams) 1 (c.nfreq.tdiv nfreqCoarseTot) c.ntPerPacket
    rw [← hbytes]
    generalize env.packetSize (c.nbeams.tdiv c.nstreams) 1 (c.nfreq.tdiv nfreqCoarseTot) c.ntPerPacket = nb at hbytes ⊢
    constructor
    · rintro ⟨hfp', -, -, -, -, -, -, -, hcapacity, -, hnbytes, -, -⟩
      exact ⟨hfp'.2, (h.capacity_fits_iff hint).1 hcapacity, hnbytes.2⟩
    · rintro ⟨hfp', hcapacity, hnbytes⟩
      have hle : nb ≤ c.np * nfreqCoarseTot * nb := le_mul_of_one_le_left (by omega) (Int.mul_pos hnp (by decide))
      have hnbytes : IsInt (c.np * nfreqCoarseTot * nb) := (isInt_iff (by omega)).2 hnbytes
      have hnb : IsInt nb := hnbytes.of_le (by omega) hle
      have hcapacity := (h.capacity_fits_iff hint).2 hcapacity
      have hcapacity0 := Int.tdiv_nonneg h.unassembledRingbufNsamples_pos.le (Int.mul_pos hnp hnt).le
      refine ⟨(isInt_iff hfp.le).2 hfp', ?_, ?_, hnb.of_le hb.le (by omega), ?_, hnb, h.np_mul_nt_fits hfp',
        hcapacity.of_le hcapacity0 (by omega), hcapacity, hnpackets, hnbytes, hnpackets, trivial⟩
      · unfold IsInt
        unfold L1Config.np at hnp'
        omega
      · unfold IsInt
        unfold L1Config.np at hnp'
        omega
      · have hnfreq := Int.tdiv_le_self nfreqCoarseTot h.nfreq_pos.le
        have hnfreq' := h.nfreq_le
        unfold IsInt
        omega

theorem fewChunks_derive (env : Env) {c : L1Config} {n : Int} (h : c.Sane n)
    (hassembled : IsInt (c.assembledRingbufNsamples + ntPerAssembledChunk))
    (htelescoping : ∀ (i : Nat) n, c.telescopingRingbufNsamples[i]? = some n →
      IsInt (n + 2 ^ (0 + i) * ntPerAssembledChunk)) : (deriveParams env c).FewChunks where
  assembled := by
    have hbounds := nchunks_bounds h.assembledRingbufNsamples_pos (Int.le_refl _) hassembled
    exact ⟨zero_le_two.trans hbounds.1, hbounds.2⟩
  telescoping := fun k hk => by
    obtain ⟨i, hi⟩ := List.mem_iff_getElem?.1 hk
    have hi' : (c.telescopingRingbufNsamples.mapIdx
      (fun i n => nchunks n (2 ^ i * ntPerAssembledChunk)))[i]? = some k := hi
    rw [List.getElem?_mapIdx] at hi'
    obtain ⟨n, hn, rfl⟩ := Option.map_eq_some_iff.1 hi'
    have hfits := htelescoping i n hn
    rw [Nat.zero_add] at hfits
    exact nchunks_bounds (h.telescoping_pos n (List.mem_of_getElem? hn))
      (le_mul_of_one_le_left (by decide) (one_le_pow₀ (by decide))) hfits
  telescoping_length := by
    show (c.telescopingRingbufNsamples.mapIdx _).length ≤ 4
    rw [List.length_mapIdx]
    exact h.telescoping_length_le

theorem liveChunks_eq (env : Env) {c : L1Config} {n : Int} (h : c.Sane n) :
    liveChunksPerBeam (deriveParams env c) = c.liveChunks := by
  have hassembled : (deriveParams env c).assembledRingbufNchunks =
      max (roundUp c.assembledRingbufNsamples ntPerAssembledChunk) 2 := by
    show max _ 2 = _
    rw [tdiv_eq_roundUp h.assembledRingbufNsamples_pos (by decide)]
  have htelescoping : (deriveParams env c).telescopingRingbufNchunks =
      c.telescopingRingbufNsamples.mapIdx (fun i n => max (roundUp n (2 ^ i * ntPerAssembledChunk)) 2) := by
    show c.telescopingRingbufNsamples.mapIdx _ = _
    apply List.mapIdx_eq_mapIdx_iff.2
    intro i hi
    unfold nchunks
    rw [tdiv_eq_roundUp (h.telescoping_pos _ (List.getElem_mem hi)) (Int.mul_pos (by positivity) (by decide))]
  unfold liveChunksPerBeam L1Config.liveChunks
  rw [hassembled, htelescoping]
  cases c.telescopingRingbufNsamples with
  | nil => rfl
  | cons n ns => simp only [List.mapIdx_cons, pow_zero, one_mul]

/-- **The derived parameters** are computed if they fit, and then they are the exact ones. -/
theorem yields_derive (env : Env) {header : Nat} (verbose : Bool) {c : L1Config} {n : Int} (h : c.Sane n)
    (hsize : ∀ nb n nu nt,
      env.packetSize nb n nu nt = header + 2 * nb + 2 * n + 8 * nb * n + nb * n * nu * nt)
    (hint : IsInt c.unassembledRingbufNsamples) :
    Yields (intDerive header verbose c) (c.Bounded header) (deriveParams env c).derived := by
  apply Yields.congr
  · apply (yields_unassembled h hsize hint).bind
    intro _
    apply (yields_nchunks verbose h.assembledRingbufNsamples_pos (by decide) (by decide)).bind
    intro hassembled
    apply (yields_telescoping verbose _ 0 h.telescoping_pos (by have hlen := h.telescoping_length_le; omega)).bind
    intro htelescoping
    simp only [Nat.zero_add]
    exact ((fewChunks_derive env h hassembled htelescoping).yields_slabs h.nbeams_pos h.nstreams_pos).map _
  · have hlive := liveChunks_eq env h
    have hfp := h.fp_pos
    have hnbytes : c.np * nfreqCoarseTot *
        env.packetSize (c.nbeams.tdiv c.nstreams) 1 (c.nfreq.tdiv nfreqCoarseTot) c.ntPerPacket =
          (40000 / (c.ntPerPacket * c.fpgaCountsPerSample) + 1) * 1024 *
            (header + 10 * (c.nbeams / c.nstreams) + 2 + c.nbeams / c.nstreams * (c.nfreq / 1024) * c.ntPerPacket) := by
      unfold L1Config.np nfreqCoarseTot
      rw [hsize, Int.tdiv_eq_ediv_of_nonneg (by decide), Int.tdiv_eq_ediv_of_nonneg h.nbeams_pos.le,
        Int.tdiv_eq_ediv_of_nonneg h.nfreq_pos.le]
      ring
    have hslabs : (deriveParams env c).nbeams * liveChunksPerBeam (deriveParams env c) +
        (deriveParams env c).nstreams * (deriveParams env c).temporaryChunksPerStream =
          c.nbeams * c.liveChunks + c.nstreams * max 1 (c.telescopingRingbufNsamples.length : Int) := by
      rw [hlive]
      show _ + c.nstreams * max 1 ((c.telescopingRingbufNsamples.mapIdx _).length : Int) = _
      rw [List.length_mapIdx]
      rfl
    rw [hnbytes, hslabs]
    constructor
    · rintro ⟨⟨hfp', hcapacity, hnbytes'⟩, hassembled, htelescoping, hslabs'⟩
      refine ⟨hfp', hcapacity, hnbytes', hassembled.2, ?_, hslabs'⟩
      intro i n hn
      have hfits := (htelescoping i n hn).2
      rw [Nat.zero_add] at hfits
      exact hfits
    · rintro ⟨hfp', hcapacity, hnbytes', hassembled, htelescoping, hslabs'⟩
      refine ⟨⟨hfp', hcapacity, hnbytes'⟩, ?_, ?_, hslabs'⟩
      · have hpos := h.assembledRingbufNsamples_pos
        unfold IsInt ntPerAssembledChunk
        omega
      · intro i n hn
        have hpos := h.telescoping_pos n (List.mem_of_getElem? hn)
        have hntC : (0 : Int) ≤ 2 ^ i * ntPerAssembledChunk := Int.mul_nonneg (by positivity) (by decide)
        rw [Nat.zero_add]
        exact (isInt_iff (by omega)).2 (htelescoping i n hn)

/-! ## The constructor -/

def checkedConfig (env : Env) (opts : Options) (p : Paramfile) : Reading L1Config := do
  let (c, _) ← readCommon env opts p
  let c ← readStream opts p c
  runChecks (streamChecks c)
  return c

theorem setNstreams_unassembled {c c' : L1Config} (h : setNstreams c = .ok c') :
    c'.unassembledRingbufNsamples = c.unassembledRingbufNsamples := by
  obtain ⟨ipaddr, port, hbroadcast⟩ := broadcastIpaddr_eq c
  unfold setNstreams countStreams at h
  rw [hbroadcast] at h
  split at h
  · cases h
  · cases h
    rfl

theorem readCommon_isInt {env : Env} {opts : Options} {p : Paramfile} {R R' : List String} {c : L1Config}
    {bonsai : Option BonsaiConfig} (h : (readCommon env opts p).run R = .ok ((c, bonsai), R')) :
    IsInt c.unassembledRingbufNsamples := by
  obtain ⟨c₀, c₁, c₂, beamIds, _, _, _, _, hread, hmap, hset, -, -, rfl, -⟩ := readCommon_parts h
  obtain ⟨interfaces, -, hmap⟩ := bind_eq_ok hmap
  obtain ⟨ipaddr, -, hmap⟩ := bind_eq_ok hmap
  obtain rfl := Except.ok.inj hmap
  show IsInt c₂.unassembledRingbufNsamples
  rw [setNstreams_unassembled hset]
  exact (readParams_ok hread).2.2.2

theorem checkedConfig_ok {env : Env} {opts : Options} {p : Paramfile} {c : L1Config} {R : List String}
    (h : (checkedConfig env opts p).run [] = .ok (c, R)) :
    (∃ bonsaiNfreq, c.Sane bonsaiNfreq) ∧ IsInt c.unassembledRingbufNsamples := by
  obtain ⟨⟨c₀, bonsai⟩, R₁, hcommon, h⟩ := run_bind_eq_ok h
  obtain ⟨c', R₂, hstream, h⟩ := run_bind_eq_ok h
  obtain ⟨_, R₃, -, h⟩ := run_bind_eq_ok h
  cases h
  obtain ⟨devname, acqname, beams, rfl⟩ := readStream_ok hstream
  have hint : IsInt c₀.unassembledRingbufNsamples := readCommon_isInt hcommon
  exact ⟨⟨_, (readCommon_sane hcommon).setStream devname acqname beams⟩, hint⟩

/-- **The derived parameters of a configuration that passed the checks** are computed without overflow and without a
division by zero if and only if they are bounded. -/
theorem derive_ok_iff {env : Env} {opts : Options} {p : Paramfile} {c : L1Config} {R : List String}
    (h : (checkedConfig env opts p).run [] = .ok (c, R)) (header : Nat) (verbose : Bool) :
    (∃ derived, intDerive header verbose c = .ok derived) ↔ c.Bounded header := by
  obtain ⟨⟨n, hsane⟩, hint⟩ := checkedConfig_ok h
  let env' : Env := { env with packetSize := fun nb n nu nt => header + 2 * nb + 2 * n + 8 * nb * n + nb * n * nu * nt }
  exact (yields_derive env' verbose hsane (fun _ _ _ _ => rfl) hint).exists_iff

theorem derive_ok_oneBeam : ∃ c R, (checkedConfig plainEnv toyOptions oneBeam).run [] = .ok (c, R) ∧
    ((∃ derived, intDerive 24 true c = .ok derived) ↔ c.Bounded 24) := by
  obtain ⟨⟨c, R⟩, hc⟩ := Option.isSome_iff_exists.1
    (by decide +kernel : ((checkedConfig plainEnv toyOptions oneBeam).run []).toOption.isSome = true)
  have hc := toOption_eq_some.1 hc
  exact ⟨c, R, hc, derive_ok_iff hc 24 true⟩

def fourBeams : Paramfile where
  filename := "l1.yaml".toList
  nodes    := [("nbeams", scalar 4), ("nfreq", scalar 16384), ("nt_per_packet", scalar 16),
    ("fpga_counts_per_sample", scalar 1), ("nt_align", scalar 0), ("nrfifreq", scalar 1024),
    ("ipaddr", text "127.0.0.1".toList), ("port", scalar 6677),
    ("rpc_address", text "tcp://127.0.0.1:5555".toList), ("prometheus_address", text "127.0.0.1:8888".toList),
    ("frame0_url", text []), ("output_devices", text "/local".toList), ("l1b_executable_filename", text [])]

def fourBeamsConfig : L1Config :=
  ((checkedConfig plainEnv toyOptions fourBeams).run' []).toOption.get (by decide +kernel)

/-- The bytes of a list of packets overflow. -/
theorem not_derive_ok_fourBeams : ¬ ∀ (env : Env) (opts : Options) (p : Paramfile) (c : L1Config) (R : List String),
    (checkedConfig env opts p).run [] = .ok (c, R) → ∀ (header : Nat) (verbose : Bool),
      ∃ derived, intDerive header verbose c = .ok derived := by
  intro hall
  obtain ⟨⟨c, R⟩, hc⟩ := Option.isSome_iff_exists.1
    (by decide +kernel : ((checkedConfig plainEnv toyOptions fourBeams).run []).toOption.isSome = true)
  have hrun := toOption_eq_some.1 hc
  have hconfig : c = fourBeamsConfig := by
    apply Option.some.inj
    unfold fourBeamsConfig
    rw [Option.some_get, StateT.run'_eq, hrun]
    rfl
  obtain ⟨derived, hok⟩ := hall plainEnv toyOptions fourBeams c R hrun 24 false
  have hoverflow : intDerive (24 : Nat) false fourBeamsConfig = .error .overflow := by decide +kernel
  rw [hconfig, hoverflow] at hok
  cases hok

end Config
end FrbL1
