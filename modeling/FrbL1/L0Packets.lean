import FrbL1.L0Streams
/-!
# L0Packets — the packets of the L0 simulator

Behind its checks, the constructor of `l0_params` throws or completes; none of its assertions fails
(`l0Params_completes`).  The numbers are integers here.
-/
namespace FrbL1
namespace L0

open Config

/-! ## Computations that may throw -/

section
variable {α β : Type} {P : α → Prop} {Q : β → Prop}

/-- `x` throws, or ends with what `P` holds of. -/
def OrThrows (x : Except Stop α) (P : α → Prop) : Prop := (∃ what, x = .error (.threw what)) ∨ ∃ a, x = .ok a ∧ P a

theorem orThrows_ok {a : α} (h : P a) : OrThrows (.ok a) P := .inr ⟨a, rfl, h⟩

theorem OrThrows.mono {P' : α → Prop} {x : Except Stop α} (hx : OrThrows x P) (h : ∀ a, P a → P' a) :
    OrThrows x P' := by
  rcases hx with hthrew | ⟨a, ha, hP⟩
  · exact .inl hthrew
  · exact .inr ⟨a, ha, h a hP⟩

theorem OrThrows.bind {x : Except Stop α} {f : α → Except Stop β} (hx : OrThrows x P)
    (hf : ∀ a, P a → OrThrows (f a) Q) : OrThrows (x >>= f) Q := by
  rcases hx with ⟨what, rfl⟩ | ⟨a, rfl, hP⟩
  · exact .inl ⟨what, rfl⟩
  · exact hf a hP

theorem OrThrows.run_bind {x : Reading α} {f : α → Reading β} {R : List String} {P : α × List String → Prop}
    {Q : β × List String → Prop} (hx : OrThrows (x.run R) P) (hf : ∀ a R', P (a, R') → OrThrows ((f a).run R') Q) :
    OrThrows ((x >>= f).run R) Q := by
  rw [StateT.run_bind]
  apply hx.bind
  rintro ⟨a, R'⟩ hP
  exact hf a R' hP

theorem OrThrows.run_lift {x : Except Stop α} (hx : OrThrows x P) (R : List String) :
    OrThrows ((liftM x : Reading α).run R) (fun y => P y.1) := by
  rcases hx with ⟨what, rfl⟩ | ⟨a, rfl, hP⟩
  · exact .inl ⟨what, rfl⟩
  · exact .inr ⟨(a, R), rfl, hP⟩

theorem orThrows_mapM {f : α → Except Stop β} : ∀ as : List α, (∀ a ∈ as, OrThrows (f a) (fun _ => True)) →
    OrThrows (as.mapM f) (fun _ => True)
  | [],      _ => orThrows_ok trivial
  | a :: as, h => by
    obtain ⟨ha, has⟩ := List.forall_mem_cons.1 h
    rw [List.mapM_cons]
    apply ha.bind
    intro b _
    apply (orThrows_mapM as has).bind
    intro bs _
    exact orThrows_ok trivial

end

theorem orThrows_throwIf (c : Prop) [Decidable c] (txt : List Char) : OrThrows (throwIf c txt) (fun _ => ¬ c) := by
  unfold throwIf
  split
  · exact .inl ⟨txt, rfl⟩
  · rename_i hc
    exact orThrows_ok hc

theorem orThrows_assert {c : Prop} [Decidable c] (h : c) : OrThrows (assert c) (fun _ => True) := by
  unfold assert
  rw [if_pos h]
  exact orThrows_ok trivial

theorem orThrows_xdiv {num den : Int} (hnum : 0 < num) (hden : 0 < den) (hdvd : den ∣ num) :
    OrThrows (xdiv num den) (fun q => num = den * q ∧ 0 < q) := by
  have hxdiv : xdiv num den = .ok (num.tdiv den) := if_pos ⟨hnum, hden, Int.tmod_eq_zero_of_dvd hdvd⟩
  obtain ⟨hmul, -, hpos⟩ := xdiv_eq_ok hxdiv
  rw [hxdiv]
  exact orThrows_ok ⟨hmul, hpos⟩

theorem orThrows_readScalar {α : Type} (p : Paramfile) (ty : YamlType α) (k : String) (R : List String) :
    OrThrows ((p.readScalar ty k).run R) (fun _ => True) := by
  unfold Paramfile.readScalar Paramfile.readScalar2
  split
  · split
    · exact orThrows_ok trivial
    · exact .inl ⟨_, rfl⟩
  · exact .inl ⟨_, rfl⟩

/-! ## Powers of two -/

theorem isPowerOfTwo_eq_ok {n : Int} : isPowerOfTwo n = .ok true ↔ ∃ k : Nat, n = 2 ^ k := by
  have htoNat : (1 ≤ n ∧ n.toNat &&& (n.toNat - 1) = 0) ↔ ∃ k : Nat, n = 2 ^ k := by
    constructor
    · rintro ⟨hn, hand⟩
      obtain ⟨k, hk⟩ := (Nat.and_sub_one_eq_zero_iff_isPowerOfTwo (by omega)).1 hand
      refine ⟨k, ?_⟩
      rw [← Int.toNat_of_nonneg (by omega : 0 ≤ n), hk, Nat.cast_pow, Nat.cast_two]
    · rintro ⟨k, rfl⟩
      have hk : ((2 : Int) ^ k).toNat = 2 ^ k := by
        apply Int.ofNat.inj
        rw [Int.ofNat_eq_natCast, Int.ofNat_eq_natCast, Int.toNat_of_nonneg (by positivity), Nat.cast_pow, Nat.cast_two]
      refine ⟨one_le_pow₀ (by decide), ?_⟩
      rw [hk]
      exact (Nat.and_sub_one_eq_zero_iff_isPowerOfTwo (by positivity)).2 ⟨k, rfl⟩
  rw [← htoNat]
  unfold isPowerOfTwo assert
  split
  · rename_i hn
    constructor
    · intro h
      exact ⟨hn, of_decide_eq_true (Except.ok.inj h)⟩
    · rintro ⟨-, hand⟩
      exact congrArg Except.ok (decide_eq_true hand)
  · rename_i hn
    constructor
    · intro h
      cases h
    · rintro ⟨hn', -⟩
      exact absurd hn' hn

theorem orThrows_roundDown {x : Int} (h1 : 1 ≤ x) (hlt : x < 10 ^ 9) :
    OrThrows (roundDownToPowerOfTwo x) (fun r => (∃ k : Nat, r = 2 ^ k) ∧ r ≤ x) := by
  apply (orThrows_assert (And.intro h1 hlt)).bind
  intro _ _
  apply orThrows_ok
  refine ⟨⟨_, rfl⟩, ?_⟩
  have hle := Nat.log2_self_le (by omega : x.toNat ≠ 0)
  rw [← Int.toNat_of_nonneg (by omega : 0 ≤ x)]
  exact_mod_cast hle

theorem min_two_pow (j k : Nat) : ∃ i : Nat, min ((2 : Int) ^ j) (2 ^ k) = 2 ^ i ∧ (2 : Int) ^ i ∣ 2 ^ k := by
  rcases Nat.le_total j k with hjk | hjk
  · refine ⟨j, min_eq_left (pow_le_pow_right₀ (by decide) hjk), pow_dvd_pow 2 hjk⟩
  · refine ⟨k, min_eq_right (pow_le_pow_right₀ (by decide) hjk), Int.dvd_refl _⟩

/-! ## Checked parameters -/

structure L0Params.Checked (l : L0Params) : Prop where
  nstreams_pos      : 0 < l.nstreams
  nbeams_pos        : 0 < l.nbeamsTot
  nbeams_dvd        : l.nstreams ∣ l.nbeamsTot
  nthreads          : ∃ k : Nat, k ≤ 5 ∧ l.nthreadsTot = l.nstreams * 2 ^ k
  nfreqFine_pos     : 0 < l.nfreqFine
  nfreqFine_dvd     : nfreqCoarse ∣ l.nfreqFine
  ntPerPacket       : ∃ k : Nat, l.ntPerPacket = 2 ^ k
  maxPacketSize_pos : 0 < l.maxPacketSize

theorem assert_ok {c : Prop} [Decidable c] {u : Unit} (h : assert c = .ok u) : c := by
  unfold assert at h
  split at h
  · rename_i hc
    exact hc
  · cases h

theorem throwIf_ok {c : Prop} [Decidable c] {txt : List Char} {u : Unit} (h : throwIf c txt = .ok u) : ¬ c := by
  unfold throwIf at h
  split at h
  · cases h
  · rename_i hc
    exact hc

theorem checkParams_ok {filename : List Char} {l : L0Params} (h : checkParams filename l = .ok ()) : l.Checked := by
  unfold checkParams at h
  obtain ⟨_, hnstreams, h⟩ := bind_eq_ok h
  obtain ⟨_, hnthreads, h⟩ := bind_eq_ok h
  obtain ⟨_, hnthreads_le, h⟩ := bind_eq_ok h
  obtain ⟨_, hnbeams, h⟩ := bind_eq_ok h
  obtain ⟨_, hnfreq, h⟩ := bind_eq_ok h
  obtain ⟨_, -, h⟩ := bind_eq_ok h
  obtain ⟨_, hmax, h⟩ := bind_eq_ok h
  iterate 3 obtain ⟨_, -, h⟩ := bind_eq_ok h
  simp only at h
  split at h
  · obtain ⟨ntPow, hntPow, h⟩ := bind_eq_ok h
    obtain ⟨_, hnt, -⟩ := bind_eq_ok h
    exact absurd (Except.ok.inj hntPow).symm (throwIf_ok hnt)
  · obtain ⟨ntPow, hntPow, h⟩ := bind_eq_ok h
    obtain ⟨_, hnt, h⟩ := bind_eq_ok h
    obtain ⟨_, hnbeams_mod, h⟩ := bind_eq_ok h
    obtain ⟨_, hnthreads_mod, h⟩ := bind_eq_ok h
    obtain ⟨nthreadsPerStream, hperStream, h⟩ := bind_eq_ok h
    obtain ⟨threadsPow, hthreadsPow, h⟩ := bind_eq_ok h
    obtain ⟨_, hthreads, hnfreq_mod⟩ := bind_eq_ok h
    have hnstreams := assert_ok hnstreams
    have hnthreads_le := assert_ok hnthreads_le
    obtain ⟨hnthreads_eq, -, -⟩ := xdiv_eq_ok hperStream
    have hthreads := throwIf_ok hthreads
    rw [Bool.not_eq_false] at hthreads
    obtain ⟨k, rfl⟩ := isPowerOfTwo_eq_ok.1 (hthreads ▸ hthreadsPow)
    have hk : k ≤ 5 := by
      have hpow : (2 : Int) ^ k ≤ 2 ^ 5 := by
        have hle : (2 : Int) ^ k ≤ l.nstreams * 2 ^ k := le_mul_of_one_le_left (by positivity) hnstreams
        omega
      exact (pow_le_pow_iff_right₀ (by decide)).1 hpow
    have hnt := throwIf_ok hnt
    rw [Bool.not_eq_false] at hnt
    refine ⟨hnstreams, assert_ok hnbeams, Int.dvd_of_tmod_eq_zero (not_not.1 (throwIf_ok hnbeams_mod)),
      ⟨k, hk, hnthreads_eq⟩, assert_ok hnfreq, Int.dvd_of_tmod_eq_zero (not_not.1 (throwIf_ok hnfreq_mod)),
      isPowerOfTwo_eq_ok.1 (hnt ▸ hntPow), assert_ok hmax⟩

/-- What the divisions are: each of them is exact. -/
structure L0Params.Sized (l : L0Params) : Prop extends l.Checked where
  nbeams              : l.nbeamsTot = l.nstreams * l.nbeamsPerStream
  nbeamsPerStream_pos : 0 < l.nbeamsPerStream
  nthreadsTot         : l.nthreadsTot = l.nstreams * l.nthreadsPerStream
  nfreq               : nfreqCoarse = l.nthreadsPerStream * l.nfreqCoarsePerThread
  perThread           : ∃ j : Nat, l.nfreqCoarsePerThread = 2 ^ j
  nfreqFine           : l.nfreqFine = nfreqCoarse * l.nupfreq
  nupfreq_pos         : 0 < l.nupfreq

theorem L0Params.Checked.orThrows_deriveSizes {l : L0Params} (h : l.Checked) :
    OrThrows (deriveSizes l) (fun l' => l'.Sized ∧ l'.maxPacketSize = l.maxPacketSize) := by
  obtain ⟨k, hk, hnthreads⟩ := h.nthreads
  have hpow : (0 : Int) < 2 ^ k := by positivity
  have hcoarse : nfreqCoarse = 2 ^ k * 2 ^ (10 - k) := by
    rw [← pow_add, Nat.add_sub_of_le (by omega)]
    rfl
  unfold deriveSizes
  apply (orThrows_xdiv h.nbeams_pos h.nstreams_pos h.nbeams_dvd).bind
  rintro nbeamsPerStream ⟨hnb, hnbpos⟩
  apply (orThrows_xdiv (hnthreads ▸ Int.mul_pos h.nstreams_pos hpow) h.nstreams_pos ⟨_, hnthreads⟩).bind
  rintro nthreadsPerStream ⟨hnt, -⟩
  have hperStream : nthreadsPerStream = 2 ^ k := by
    apply Int.eq_of_mul_eq_mul_left h.nstreams_pos.ne'
    rw [← hnt, hnthreads]
  apply (orThrows_xdiv (by decide) (hperStream ▸ hpow) ⟨_, hperStream ▸ hcoarse⟩).bind
  rintro nfreqCoarsePerThread ⟨hnf, -⟩
  apply (orThrows_xdiv h.nfreqFine_pos (by decide) h.nfreqFine_dvd).bind
  rintro nupfreq ⟨hnu, hnupos⟩
  apply orThrows_ok
  refine ⟨⟨{ h with }, hnb, hnbpos, hnt, hnf, ⟨10 - k, ?_⟩, hnu, hnupos⟩, rfl⟩
  apply Int.eq_of_mul_eq_mul_left hpow.ne'
  rw [← hcoarse, hnf, hperStream]

/-! ## Packets -/

section
variable {env : L0Env} {l : L0Params} (h : l.Sized)
  (hsize : ∀ nb n nu nt, env.packetSize nb n nu nt = 24 + 2 * nb + 2 * n + 8 * nb * n + nb * n * nu * nt)
include h hsize

theorem packetSizeOf_one : 36 ≤ packetSizeOf env l 1 := by
  obtain ⟨k, hk⟩ := h.ntPerPacket
  have hnb := h.nbeamsPerStream_pos
  have hdata : 0 ≤ l.nbeamsPerStream * 1 * l.nupfreq * l.ntPerPacket := by
    rw [hk]
    exact Int.mul_nonneg (Int.mul_nonneg (by omega) h.nupfreq_pos.le) (by positivity)
  unfold packetSizeOf
  rw [hsize]
  omega

/-- As many coarse channels fit into a packet as the packet of one of them fits into it. -/
theorem packetSizeOf_le {n : Int} (hn : 0 < n) (hle : n ≤ l.maxPacketSize.tdiv (packetSizeOf env l 1)) :
    packetSizeOf env l n ≤ l.maxPacketSize := by
  have hone := packetSizeOf_one h hsize
  have hmul : packetSizeOf env l n ≤ n * packetSizeOf env l 1 := by
    unfold packetSizeOf
    rw [hsize, hsize]
    exact plainEnv_packetSize_le _ _ h.nbeamsPerStream_pos hn
  rw [Int.tdiv_eq_ediv_of_nonneg h.maxPacketSize_pos.le] at hle
  calc packetSizeOf env l n ≤ n * packetSizeOf env l 1 := hmul
    _ ≤ l.maxPacketSize / packetSizeOf env l 1 * packetSizeOf env l 1 := Int.mul_le_mul_of_nonneg_right hle (by omega)
    _ ≤ l.maxPacketSize := Int.ediv_mul_le _ (by omega)

theorem quotient_bounds (hmax : IsInt l.maxPacketSize) (hone : packetSizeOf env l 1 ≤ l.maxPacketSize) :
    1 ≤ l.maxPacketSize.tdiv (packetSizeOf env l 1) ∧ l.maxPacketSize.tdiv (packetSizeOf env l 1) < 10 ^ 9 := by
  have h36 := packetSizeOf_one h hsize
  have hlt : l.maxPacketSize < 2 ^ 31 := hmax.2
  rw [Int.tdiv_eq_ediv_of_nonneg h.maxPacketSize_pos.le]
  constructor
  · apply (Int.le_ediv_iff_mul_le (by omega)).2
    omega
  · apply (Int.ediv_lt_iff_lt_mul (by omega)).2
    omega

theorem orThrows_defaultPerPacket (hmax : IsInt l.maxPacketSize) (filename : List Char) :
    OrThrows (defaultPerPacket env filename l) (fun n => packetSizeOf env l n ≤ l.maxPacketSize ∧
      n ∣ l.nfreqCoarsePerThread ∧ (∃ k : Nat, n = 2 ^ k) ∧
      1 ≤ l.maxPacketSize.tdiv (packetSizeOf env l 1) ∧ l.maxPacketSize.tdiv (packetSizeOf env l 1) < 10 ^ 9) := by
  obtain ⟨j, hj⟩ := h.perThread
  unfold defaultPerPacket
  apply (orThrows_throwIf _ _).bind
  intro _ hone
  obtain ⟨h1, hlt⟩ := quotient_bounds h hsize hmax (not_lt.1 hone)
  apply (orThrows_roundDown h1 hlt).bind
  rintro r ⟨⟨i, rfl⟩, hr⟩
  apply orThrows_ok
  obtain ⟨k, hmin, hdvd⟩ := min_two_pow i j
  rw [hj, hmin]
  refine ⟨packetSizeOf_le h hsize (by positivity) ?_, hdvd, ⟨k, rfl⟩, h1, hlt⟩
  rw [← hmin]
  exact (min_le_left _ _).trans hr

end

theorem orThrows_checkPerPacket (env : L0Env) (filename : List Char) (l : L0Params) (n : Int) :
    OrThrows (checkPerPacket env filename l n) (fun _ => 0 < n ∧ n ∣ l.nfreqCoarsePerThread ∧
      packetSizeOf env l n ≤ l.maxPacketSize) := by
  unfold checkPerPacket
  apply (orThrows_throwIf _ _).bind
  intro _ hn
  apply (orThrows_throwIf _ _).mono
  intro _ hmax
  rw [not_or] at hn
  exact ⟨not_le.1 hn.1, Int.dvd_of_tmod_eq_zero (not_not.1 hn.2), not_lt.1 hmax⟩

/-- What is chosen if `nfreq_coarse_per_packet` is not given. -/
structure L0Params.Defaulted (env : L0Env) (l : L0Params) : Prop where
  powerOfTwo     : ∃ k : Nat, l.nfreqCoarsePerPacket = 2 ^ k
  quotient_pos   : 1 ≤ l.maxPacketSize.tdiv (packetSizeOf env l 1)
  quotient_lt    : l.maxPacketSize.tdiv (packetSizeOf env l 1) < 10 ^ 9

/-- What holds at the end, and with it all the assertions. -/
structure L0Params.Packed (env : L0Env) (p : Paramfile) (l : L0Params) : Prop extends l.Sized where
  perPacket_pos : 0 < l.nfreqCoarsePerPacket
  perPacket_dvd : l.nfreqCoarsePerPacket ∣ l.nfreqCoarsePerThread
  packetSize    : l.packetSize = packetSizeOf env l l.nfreqCoarsePerPacket
  packetSize_le : l.packetSize ≤ l.maxPacketSize
  defaulted     : p.hasParam "nfreq_coarse_per_packet" = false → l.Defaulted env

theorem orThrows_readPerPacket {env : L0Env} (p : Paramfile) {l : L0Params} (h : l.Sized) (hmax : IsInt l.maxPacketSize)
    (hsize : ∀ nb n nu nt, env.packetSize nb n nu nt = 24 + 2 * nb + 2 * n + 8 * nb * n + nb * n * nu * nt)
    (R : List String) : OrThrows ((readPerPacket env p l).run R) (fun y => (l.setPerPacket env y.1).Packed env p) := by
  have hsized : ∀ n, (l.setPerPacket env n).Sized := fun n => { h with }
  unfold readPerPacket
  split
  · rename_i hgiven
    apply (orThrows_readScalar p int "nfreq_coarse_per_packet" R).run_bind
    intro n R' _
    apply ((orThrows_checkPerPacket env p.filename l n).run_lift R').run_bind
    rintro u R'' ⟨hpos, hdvd, hle⟩
    apply orThrows_ok
    refine ⟨hsized n, hpos, hdvd, rfl, hle, ?_⟩
    intro hdefault
    exact absurd (hgiven.symm.trans hdefault) Bool.noConfusion
  · apply ((orThrows_defaultPerPacket h hsize hmax p.filename).run_lift R).mono
    rintro ⟨n, R'⟩ ⟨hle, hdvd, ⟨k, hk⟩, h1, hlt⟩
    refine ⟨hsized n, ?_, hdvd, rfl, hle, fun _ => ⟨⟨k, hk⟩, h1, hlt⟩⟩
    show 0 < n
    rw [show n = 2 ^ k from hk]
    positivity

theorem orThrows_dieOfUnused (p : Paramfile) (R : List String) : OrThrows ((dieOfUnused p).run R) (fun _ => True) := by
  have hget : OrThrows ((get : Reading (List String)).run R) (fun _ => True) := orThrows_ok trivial
  apply hget.run_bind
  intro requestedKeys R' _
  simp only
  split
  · exact .inl ⟨_, rfl⟩
  · exact orThrows_ok trivial

theorem L0Params.Packed.orThrows_assertPackets {env : L0Env} {p : Paramfile} {l : L0Params} (h : l.Packed env p) :
    OrThrows (assertPackets l) (fun _ => True) := by
  obtain ⟨k, hk⟩ := h.ntPerPacket
  unfold assertPackets
  rw [isPowerOfTwo_eq_ok.2 ⟨k, hk⟩]
  apply (orThrows_assert h.perPacket_pos).bind
  intro _ _
  apply (orThrows_assert (Int.tmod_eq_zero_of_dvd h.perPacket_dvd)).bind
  intro _ _
  apply (orThrows_assert (hk ▸ by positivity : l.ntPerPacket > 0)).bind
  intro _ _
  rw [ok_bind]
  apply (orThrows_assert rfl).bind
  intro _ _
  exact orThrows_assert h.packetSize_le

theorem orThrows_makeStreams {env : L0Env} (l : L0Params)
    (hmake : ∀ o, env.makeOstream o = .ok () ∨ ∃ what, env.makeOstream o = .error (.threw what)) :
    OrThrows (makeStreams env l) (fun _ => True) := by
  apply orThrows_mapM
  intro ithread _
  have hone : OrThrows (env.makeOstream (l.makeOstream ithread)) (fun _ => True) := by
    rcases hmake (l.makeOstream ithread) with hok | hthrew
    · exact .inr ⟨(), hok, trivial⟩
    · exact .inl hthrew
  apply hone.bind
  intro _ _
  exact orThrows_ok trivial

/-! ## The constructor -/

def l0Checked (gbps : ℚ) (p : Paramfile) : Reading L0Params := do
  let l ← readL0 gbps p
  let l ← countStreams p.filename (broadcast l)
  checkParams p.filename l
  return l

def l0Rest (env : L0Env) (p : Paramfile) (l : L0Params) : Reading L0Params := do
  let l ← deriveSizes l
  let n ← readPerPacket env p l
  let l := l.setPerPacket env n
  dieOfUnused p
  assertPackets l
  let streams ← makeStreams env l
  return { l with streams }

theorem l0Params_eq (env : L0Env) (gbps : ℚ) (p : Paramfile) :
    l0Params env gbps p = l0Checked gbps p >>= l0Rest env p := by
  unfold l0Params l0Checked l0Rest
  simp only [bind_assoc, pure_bind]

theorem readL0_isInt {gbps : ℚ} {p : Paramfile} {R : List String} {x : L0Params × List String}
    (h : (readL0 gbps p).run R = .ok x) : IsInt x.1.maxPacketSize := by
  unfold readL0 at h
  iterate 5 obtain ⟨_, _, -, h⟩ := run_bind_eq_ok h
  obtain ⟨maxPacketSize, _, hmax, h⟩ := run_bind_eq_ok h
  iterate 3 obtain ⟨_, _, -, h⟩ := run_bind_eq_ok h
  cases h
  show IsInt maxPacketSize
  rcases Paramfile.readScalarD_ok hmax with hdefault | hscalar
  · rw [show maxPacketSize = 8900 from hdefault]
    decide
  · exact hscalar.isInt

theorem l0Checked_ok {gbps : ℚ} {p : Paramfile} {l : L0Params} {R : List String}
    (h : (l0Checked gbps p).run [] = .ok (l, R)) : l.Checked ∧ IsInt l.maxPacketSize := by
  unfold l0Checked at h
  obtain ⟨l₀, _, hread, h⟩ := run_bind_eq_ok h
  obtain ⟨l₁, _, hcount, h⟩ := run_bind_eq_ok h
  obtain ⟨_, _, hcheck, h⟩ := run_bind_eq_ok h
  cases h
  obtain ⟨-, rfl⟩ := countStreams_ok (run_lift_eq_ok hcount).1
  refine ⟨checkParams_ok (run_lift_eq_ok hcheck).1, ?_⟩
  obtain ⟨ipaddr, port, hbroadcast⟩ := broadcast_eq l₀
  show IsInt (broadcast l₀).maxPacketSize
  rw [hbroadcast]
  exact readL0_isInt hread

/-- **Behind its checks the constructor throws or completes**, and then all its assertions hold. -/
theorem l0Params_completes {env : L0Env} {gbps : ℚ} {p : Paramfile} {l₁ : L0Params} {R₁ : List String}
    (h : (l0Checked gbps p).run [] = .ok (l₁, R₁))
    (hsize : ∀ nb n nu nt, env.packetSize nb n nu nt = 24 + 2 * nb + 2 * n + 8 * nb * n + nb * n * nu * nt)
    (hmake : ∀ o, env.makeOstream o = .ok () ∨ ∃ what, env.makeOstream o = .error (.threw what)) :
    (∃ what, (l0Params env gbps p).run [] = .error (.threw what)) ∨
      ∃ l R, (l0Params env gbps p).run [] = .ok (l, R) ∧ l.Packed env p := by
  obtain ⟨hchecked, hmax⟩ := l0Checked_ok h
  have hrest : OrThrows ((l0Rest env p l₁).run R₁) (fun y => y.1.Packed env p) := by
    apply (hchecked.orThrows_deriveSizes.run_lift R₁).run_bind
    rintro l R ⟨hsized, hsame⟩
    apply (orThrows_readPerPacket p hsized (hsame ▸ hmax) hsize R).run_bind
    intro n R' hpacked
    apply (orThrows_dieOfUnused p R').run_bind
    intro _ R' _
    apply (hpacked.orThrows_assertPackets.run_lift R').run_bind
    intro _ R' _
    apply ((orThrows_makeStreams (l.setPerPacket env n) hmake).run_lift R').run_bind
    intro streams R' _
    apply orThrows_ok
    exact { hpacked with defaulted := fun hdefault => { hpacked.defaulted hdefault with } }
  rw [l0Params_eq, StateT.run_bind, h]
  rcases hrest with hthrew | ⟨⟨l, R⟩, hok, hpacked⟩
  · exact .inl hthrew
  · exact .inr ⟨l, R, hok, hpacked⟩

def l0ExampleChecked : L0Params × List String := ((l0Checked 1 l0File).run []).toOption.get (by decide +kernel)

theorem l0Example_packed : ∃ l R, (l0Params l0Env 1 l0File).run [] = .ok (l, R) ∧ l.Packed l0Env l0File := by
  have hchecked : (l0Checked 1 l0File).run [] = .ok (l0ExampleChecked.1, l0ExampleChecked.2) :=
    toOption_eq_some.1 (Option.some_get (by decide +kernel)).symm
  rcases @l0Params_completes l0Env _ _ _ _ hchecked (fun _ _ _ _ => rfl) (fun _ => .inl rfl) with ⟨what, hthrew⟩ | hok
  · cases hthrew.symm.trans l0Example_ok
  · exact hok

end L0
end FrbL1
