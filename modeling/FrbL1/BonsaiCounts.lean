import FrbL1.FpgaCounts
/-!
# BonsaiCounts — the FPGA count of the bonsai stage

The product of the number of chunks, their length and the FPGA counts per sample is computed in an `int`, and widened
when the first FPGA count is added.  The reported count is the right one exactly as long as the product fits
(`bonsai_counts`); after that it first jumps up, and comes down again later.
-/
namespace FrbL1
namespace Startup

open Config
open Posix (Tree)
open Trans (run Reachable)

/-! ## The arithmetic -/

/-- The count in 32-bit arithmetic, as the handler computes it. -/
def bonsaiCount (nc ntChunk fpgaCountsPerSample : Int) (first : Nat) : Nat :=
  toUint64 (mulInt (mulInt nc ntChunk) fpgaCountsPerSample + first)

def exactCount (nc ntChunk fpgaCountsPerSample : Int) (first : Nat) : Nat :=
  toUint64 (first + nc * ntChunk * fpgaCountsPerSample)

theorem mulInt_mulInt (a b c : Int) : mulInt (mulInt a b) c = (a * b * c).bmod (2 ^ 32) := Int.bmod_mul_bmod

theorem toUint64_bmod (n : Int) (first : Nat) :
    toUint64 (n.bmod (2 ^ 32) + first) = toUint64 (first + n) ↔ IsInt (n.bmod (2 ^ 64)) := by
  unfold toUint64 IsInt
  simp only [Int.bmod_def]
  omega

theorem bonsaiCount_eq_iff (nc nt f : Int) (first : Nat) :
    bonsaiCount nc nt f first = exactCount nc nt f first ↔ IsInt ((nc * nt * f).bmod (2 ^ 64)) := by
  unfold bonsaiCount exactCount
  rw [mulInt_mulInt, toUint64_bmod]

/-- As long as the product is short of `2 ^ 63`, it has to fit. -/
theorem isInt_bmod_iff {n : Int} (h0 : 0 ≤ n) (hn : n < 2 ^ 63) : IsInt (n.bmod (2 ^ 64)) ↔ n < 2 ^ 31 := by
  unfold IsInt
  simp only [Int.bmod_def]
  omega

section
variable {nt f : Int} (hnt : 0 < nt) (hf : 0 < f)
include hnt hf

theorem product_mono {nc nc' : Nat} (h : nc ≤ nc') : (nc : Int) * nt * f ≤ nc' * nt * f := by
  have hle : (nc : Int) ≤ nc' := by exact_mod_cast h
  exact Int.mul_le_mul_of_nonneg_right (Int.mul_le_mul_of_nonneg_right hle hnt.le) hf.le

theorem product_nonneg (nc : Nat) : 0 ≤ (nc : Int) * nt * f := by
  have hle := product_mono hnt hf (Nat.zero_le nc)
  rwa [Nat.cast_zero, zero_mul, zero_mul] at hle

/-- **The first product that does not fit** is one step above one that does, so it is short of `2 ^ 63`. -/
theorem products_fit_iff (hnt' : IsInt nt) (hf' : IsInt f) (n : Nat) :
    (∀ nc ≤ n, IsInt (((nc : Int) * nt * f).bmod (2 ^ 64))) ↔ (n : Int) * nt * f < 2 ^ 31 := by
  constructor
  · intro h
    induction n with
    | zero =>
      rw [Nat.cast_zero, zero_mul, zero_mul]
      decide
    | succ n ih =>
      have hn := ih (fun nc hnc => h nc (Nat.le_succ_of_le hnc))
      have hstep : nt * f ≤ 2 ^ 31 * 2 ^ 31 := Int.mul_le_mul hnt'.2.le hf'.2.le hf.le (by decide)
      have hsucc : ((n + 1 : Nat) : Int) * nt * f = n * nt * f + nt * f := by
        push_cast
        ring
      refine (isInt_bmod_iff (product_nonneg hnt hf _) ?_).1 (h (n + 1) le_rfl)
      rw [hsucc]
      omega
  · intro h nc hnc
    have hle := product_mono hnt hf hnc
    exact (isInt_bmod_iff (product_nonneg hnt hf nc) (by omega)).2 (by omega)

theorem exactCount_mono_iff {first n : Nat} (hfirst : first < 2 ^ 64) (hn : (n : Int) * nt * f < 2 ^ 31) :
    (∀ nc nc' : Nat, nc ≤ nc' → nc' ≤ n → exactCount nc nt f first ≤ exactCount nc' nt f first) ↔
      (first : Int) + n * nt * f < 2 ^ 64 := by
  have hval : ∀ nc : Nat, exactCount nc nt f first = ((first + (nc : Int) * nt * f) % 2 ^ 64).toNat := fun _ => rfl
  constructor
  · intro h
    have hends := h 0 n (Nat.zero_le n) le_rfl
    rw [hval, hval, Nat.cast_zero, zero_mul, zero_mul] at hends
    have hpos := product_nonneg hnt hf n
    omega
  · intro h nc nc' hle hle'
    have hpos := product_nonneg hnt hf nc
    have hstep := product_mono hnt hf hle
    have hlast := product_mono hnt hf hle'
    rw [hval, hval]
    omega

end

/-! ## The reports -/

/-- The count that a server reports of the bonsai stage, for the beam `i` of its stream. -/
def bonsaiSeen (server : RpcServer) (i : Nat) (R : Readings) : Option Nat := do
  let reply ← getMaxFpgaCounts R server
  let e ← (labelled reply .bonsai)[i]?
  return e.maxFpgaSeen

structure Counting (readings : Nat → Readings) (bonsai : Obj) (beam ntChunk : Int) (first : Nat) : Prop where
  nchunksProcessed : ∀ nc : Nat, (readings nc).nchunksProcessed bonsai = nc
  ntChunk          : ∀ nc, (readings nc).ntChunk bonsai = ntChunk
  firstFpgaCount   : ∀ nc, (readings nc).firstFpgaCount beam = first

theorem Counting.bonsaiCount_eq {readings : Nat → Readings} {bonsai : Obj} {beam nt : Int} {first : Nat}
    (h : Counting readings bonsai beam nt first) (f : Int) (nc : Nat) :
    bonsaiCount ((readings nc).nchunksProcessed bonsai) ((readings nc).ntChunk bonsai) f
      ((readings nc).firstFpgaCount beam) = bonsaiCount nc nt f first := by
  rw [h.nchunksProcessed, h.ntChunk, h.firstFpgaCount]

theorem bonsaiSeen_eq {S : Setup} {R : Readings} {istream i : Nat} {x : InputStream} {rpcServer : RpcServer} {beam : Int}
    {reply : List FpgaCountsSeen} (hreply : getMaxFpgaCounts R rpcServer = some reply)
    (hattr : Attributed S R istream x reply) (hbeam : x.iniParams.beamIds[i]? = some beam) :
    let bonsai := Setup.bonsai (istream * S.nbeamsPerStream + i)
    bonsaiSeen rpcServer i R = some (bonsaiCount (R.nchunksProcessed bonsai) (R.ntChunk bonsai)
      x.iniParams.fpgaCountsPerSample (R.firstFpgaCount beam)) := by
  unfold bonsaiSeen
  rw [hreply]
  show ((labelled reply .bonsai)[i]?).bind _ = _
  rw [hattr.labelled, List.getElem?_mapIdx, hbeam]
  rfl

/-- What a server reports for one of its beams, of a run that has processed `n` chunks: always the right count. -/
def ReportsRight (server : RpcServer) (i : Nat) (readings : Nat → Readings) (ntChunk f : Int) (first n : Nat) : Prop :=
  ∀ nc ≤ n, bonsaiSeen server i (readings nc) = some (exactCount nc ntChunk f first)

def NeverDecreases (server : RpcServer) (i : Nat) (readings : Nat → Readings) (n : Nat) : Prop :=
  ∀ nc nc' v v', nc ≤ nc' → nc' ≤ n → bonsaiSeen server i (readings nc) = some v →
    bonsaiSeen server i (readings nc') = some v' → v ≤ v'

section
variable {server : RpcServer} {i : Nat} {readings : Nat → Readings} {nt f : Int} {first : Nat}
  (hseen : ∀ nc, bonsaiSeen server i (readings nc) = some (bonsaiCount nc nt f first))
include hseen

theorem reported_iff (nc : Nat) : bonsaiSeen server i (readings nc) = some (exactCount nc nt f first) ↔
    IsInt (((nc : Int) * nt * f).bmod (2 ^ 64)) := by
  rw [hseen, Option.some_inj, bonsaiCount_eq_iff]

theorem run_reported_iff (hnt : 0 < nt) (hnt' : IsInt nt) (hf : 0 < f) (hf' : IsInt f) (hfirst : first < 2 ^ 64)
    (n : Nat) : ReportsRight server i readings nt f first n ∧ NeverDecreases server i readings n ↔
      (n : Int) * nt * f < 2 ^ 31 ∧ (first : Int) + n * nt * f < 2 ^ 64 := by
  have hright : ReportsRight server i readings nt f first n ↔ (n : Int) * nt * f < 2 ^ 31 := by
    rw [← products_fit_iff hnt hf hnt' hf']
    exact forall_congr' (fun nc => forall_congr' (fun _ => reported_iff hseen nc))
  rw [hright]
  refine and_congr_right (fun hn => ?_)
  rw [← exactCount_mono_iff hnt hf hfirst hn]
  have hexact : ∀ nc ≤ n, bonsaiSeen server i (readings nc) = some (exactCount nc nt f first) := hright.2 hn
  constructor
  · intro h nc nc' hle hle'
    exact h nc nc' _ _ hle hle' (hexact nc (hle.trans hle')) (hexact nc' hle')
  · intro h nc nc' v v' hle hle' hv hv'
    obtain rfl := Option.some.inj ((hexact nc (hle.trans hle')).symm.trans hv)
    obtain rfl := Option.some.inj ((hexact nc' hle').symm.trans hv')
    exact h nc nc' hle hle'

end

/-- **The reported count of the bonsai stage** is the right one exactly if the product, taken as a signed number of 64
bits, is an `int`; and over a run it is right and never decreases exactly as long as the product is less than
`2 ^ 31`. -/
theorem bonsai_counts {env : Env} {numCores : Int} {opts : Options} {p : Paramfile} {t : Tree} {server : L1Server}
    (h : (l1Server env numCores opts p t).1 = .ok server) (chain : List PipelineObject) (hchain : chain ≠ [])
    (s : State) (hs : Reachable (step ⟨server, chain, hchain⟩) State.init s) (istream : Nat) (rpcServer : RpcServer)
    (hrpc : s.rpcServers[istream]? = some rpcServer) (x : InputStream) (hx : server.inputStreams[istream]? = some x)
    (i : Nat) (beam : Int) (hbeam : x.iniParams.beamIds[i]? = some beam) (ntChunk : Int) (first : Nat)
    (readings : Nat → Readings) (hreadings : Counting readings
      (Setup.bonsai (istream * server.config.nbeamsPerStream + i)) beam ntChunk first)
    (hnt : 0 < ntChunk) (hnt' : IsInt ntChunk) (hf : 0 < x.iniParams.fpgaCountsPerSample)
    (hf' : IsInt x.iniParams.fpgaCountsPerSample) (hfirst : first < 2 ^ 64) :
    let f := x.iniParams.fpgaCountsPerSample
    (∀ nc : Nat, bonsaiSeen rpcServer i (readings nc) = some (exactCount nc ntChunk f first) ↔
      IsInt (((nc : Int) * ntChunk * f).bmod (2 ^ 64))) ∧
    ∀ n : Nat, ReportsRight rpcServer i readings ntChunk f first n ∧ NeverDecreases rpcServer i readings n ↔
      (n : Int) * ntChunk * f < 2 ^ 31 ∧ (first : Int) + n * ntChunk * f < 2 ^ 64 := by
  intro f
  have hw := l1Server_wired h
  have hseen : ∀ nc : Nat, bonsaiSeen rpcServer i (readings nc) = some (bonsaiCount nc ntChunk f first) := fun nc => by
    obtain ⟨x', reply, hx', hreply, hattr⟩ := attributed_rpcServer hw hchain hs hrpc (readings nc)
    obtain rfl := Option.some.inj (hx.symm.trans hx')
    exact (bonsaiSeen_eq hreply hattr hbeam).trans (congrArg some (hreadings.bonsaiCount_eq f nc))
  exact ⟨reported_iff hseen, run_reported_iff hseen hnt hnt' hf hf' hfirst⟩

/-! ## A production run -/

def countingReadings (nc : Nat) : Readings where
  packetMaxFpgaSeen := 0
  flushed           := fun _ => 0
  retrieved         := fun _ => 0
  firstFpgaCount    := fun _ => 0
  posLo             := fun _ => 0
  nchunksProcessed  := fun _ => nc
  ntChunk           := fun _ => 1024

theorem counting_countingReadings (bonsai : Obj) (beam : Int) : Counting countingReadings bonsai beam 1024 0 :=
  ⟨fun _ => rfl, fun _ => rfl, fun _ => rfl⟩

theorem twinsState_reachable : Reachable (step twinsSetup) State.init twinsState := ⟨twinsRun, (Option.some_get _).symm⟩

theorem twins_stream : ∃ x, twinsServer.inputStreams[0]? = some x ∧ x.iniParams.beamIds[0]? = some 7 ∧
    x.iniParams.fpgaCountsPerSample = 384 := by
  have hstreams : twinsServer.inputStreams.map (fun x => (x.iniParams.beamIds, x.iniParams.fpgaCountsPerSample)) =
      [([7, 7], 384)] := by decide +kernel
  rcases hs : twinsServer.inputStreams with _ | ⟨x, xs⟩
  · rw [hs] at hstreams
    cases hstreams
  · rw [hs] at hstreams
    obtain ⟨hids, hf⟩ := Prod.mk.inj (List.cons.inj hstreams).1
    exact ⟨x, rfl, by rw [hids]; rfl, hf⟩

/-- The first 5461 chunks are reported right, which takes an hour and a half. -/
theorem bonsai_counts_twins : ReportsRight twinsRpcServer 0 countingReadings 1024 384 0 5461 ∧
    NeverDecreases twinsRpcServer 0 countingReadings 5461 := by
  obtain ⟨x, hx, hbeam, hf⟩ := twins_stream
  have hrun := (bonsai_counts (toOption_eq_some.1 (Option.some_get _).symm) _ (List.cons_ne_nil _ _) twinsState
    twinsState_reachable 0 twinsRpcServer (Option.some_get _).symm x hx 0 7 hbeam 1024 0 countingReadings
    (counting_countingReadings _ _) (by decide) (by decide) (by rw [hf]; decide) (by rw [hf]; decide) (by decide)).2 5461
  rw [hf] at hrun
  exact hrun.2 (by decide)

/-- **One chunk later** the count is wrong, and when as many chunks have passed again it is less than before. -/
theorem bonsai_count_wraps : Reachable (step twinsSetup) State.init twinsState ∧
    twinsState.rpcServers[0]? = some twinsRpcServer ∧
    (∃ x, twinsServer.inputStreams[0]? = some x ∧
      bonsaiSeen twinsRpcServer 0 (countingReadings 5462) ≠
        some (exactCount 5462 1024 x.iniParams.fpgaCountsPerSample 0)) ∧
    ¬ NeverDecreases twinsRpcServer 0 countingReadings 10923 := by
  obtain ⟨x, hx, -, hf⟩ := twins_stream
  have hwrong : bonsaiSeen twinsRpcServer 0 (countingReadings 5462) = some (2 ^ 64 - 2147221504) := by decide +kernel
  have hlater : bonsaiSeen twinsRpcServer 0 (countingReadings 10923) = some 131072 := by decide +kernel
  refine ⟨twinsState_reachable, (Option.some_get _).symm, ⟨x, hx, ?_⟩, fun h => ?_⟩
  · rw [hf, hwrong]
    decide
  · exact absurd (h 5462 10923 _ _ (by decide) le_rfl hwrong hlater) (by decide)

end Startup
end FrbL1
