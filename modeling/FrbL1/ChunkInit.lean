import FrbL1.Buffers
import FrbL1.RfiMask
import FrbL1.Fallible
/-!
# ChunkInit — a chunk made of arrays

`chunk_init` of `simulate_l0_py.cpp`: the sizes of an assembled chunk are taken from the shapes of numpy arrays, by two
divisions that round, and the copies take theirs from the chunk.  They agree where nothing has been rounded
(`copies_iff`).
-/
namespace FrbL1
namespace ChunkInit

open Buffers (memcpy memcpy_fills writeAll)
open RfiMask (bval)

/-- A two-dimensional array, C-contiguous. -/
structure NpyArray (α : Type) where
  dim0   : Nat
  dim1   : Nat
  data   : List α
  length : data.length = dim0 * dim1

variable {F : Type}

structure Args (F : Type) where
  beamId              : Int
  fpgaCountsPerSample : Int
  ichunk              : Int
  data                : NpyArray UInt8
  scale               : NpyArray F
  offset              : NpyArray F
  rfi                 : Option (NpyArray Bool)

/-- `assembled_chunk::initializer` -/
structure Initializer where
  beamId              : Int
  nupfreq             : Int
  nrfifreq            : Int
  ntPerPacket         : Int
  fpgaCountsPerSample : Int
  ichunk              : Int

structure AssembledChunk (F : Type) where
  ndata         : Int
  nscales       : Int
  nrfimaskbytes : Int
  data          : List UInt8
  offsets       : List F
  scales        : List F
  rfiMask       : List UInt8
  hasRfiMask    : Bool

/-- How `chunk_init` can end without a chunk. -/
inductive Failure
  | valueError (what : List Char)
  | divisionByZero
  | makeThrows
  | outOfBounds
  deriving DecidableEq

def nfreqCoarseTot : Int := 1024
def ntPerAssembledChunk : Int := 1024

/-- `(int)` of a dimension. -/
def toInt (n : Nat) : Int := (n : Int).bmod (2 ^ 32)

/-! ## The checks -/

def checkRfi : Option (NpyArray Bool) → Except Failure Unit
  | some rfi =>
    if toInt rfi.dim1 ≠ ntPerAssembledChunk then
      .error (.valueError "rfi array must have nt_per_assembled_chunk samples!".toList)
    else .ok ()
  | none     => .ok ()

def checkShapes (a : Args F) : Except Failure Unit :=
  if (a.data.dim1 : Int) ≠ ntPerAssembledChunk then
    .error (.valueError "data array must have nt_per_assembled_chunk time samples!".toList)
  else if toInt a.scale.dim0 ≠ nfreqCoarseTot then
    .error (.valueError "scale array must have nfreq_coarse samples!".toList)
  else if toInt a.offset.dim0 ≠ nfreqCoarseTot ∨ toInt a.offset.dim1 ≠ toInt a.scale.dim1 then
    .error (.valueError "offset array must have nfreq_coarse x nt_coarse samples!".toList)
  else checkRfi a.rfi

/-! ## The chunk -/

/-- `nf` is not divided in `int`s, but its quotient is one. -/
def initializer (a : Args F) : Initializer where
  beamId              := a.beamId
  nupfreq             := toInt (a.data.dim0 / 1024)
  nrfifreq            := (a.rfi.map (toInt ·.dim0)).getD 0
  ntPerPacket         := ntPerAssembledChunk.tdiv (toInt a.scale.dim1)
  fpgaCountsPerSample := a.fpgaCountsPerSample
  ichunk              := a.ichunk

/-- The loop over the bytes of the mask: each is made of one element of the array.  Nothing is read or written past the
end of a list. -/
def packMask (b : List Bool) (nrfimaskbytes : Int) (rfiMask : List UInt8) : Option (List UInt8) := do
  let stores ← (List.range (nrfimaskbytes.tdiv 8).toNat).mapM (fun i => b[i]?.map (fun x => (i, bval x)))
  writeAll stores rfiMask

def copyArrays (a : Args F) (chunk : AssembledChunk F) : Option (AssembledChunk F) := do
  let data ← memcpy chunk.data a.data.data chunk.ndata
  let offsets ← memcpy chunk.offsets a.offset.data chunk.nscales
  let scales ← memcpy chunk.scales a.scale.data chunk.nscales
  let chunk := { chunk with data, offsets, scales }
  match a.rfi with
  | some rfi =>
    let rfiMask ← packMask rfi.data chunk.nrfimaskbytes chunk.rfiMask
    return { chunk with rfiMask, hasRfiMask := true }
  | none     => return chunk

def chunkInit (make : Initializer → Option (AssembledChunk F)) (a : Args F) :
    Except Failure (AssembledChunk F) := do
  checkShapes a
  if toInt a.scale.dim1 = 0 then
    throw .divisionByZero
  match make (initializer a) with
  | none       => throw .makeThrows
  | some chunk =>
    match copyArrays a chunk with
    | some chunk => return chunk
    | none       => throw .outOfBounds

/-! ## What is copied -/

/-- What is relied on of `assembled_chunk::make`, where it makes a chunk. -/
structure Makes (make : Initializer → Option (AssembledChunk F)) : Prop where
  ntPerPacket   : ∀ ini chunk, make ini = some chunk → ∃ k ≤ 10, ini.ntPerPacket = 2 ^ k
  ndata         : ∀ ini chunk, make ini = some chunk → chunk.ndata = 1024 * ini.nupfreq * 1024 ∧
    (chunk.data.length : Int) = chunk.ndata
  nscales       : ∀ ini chunk, make ini = some chunk → chunk.nscales = 1024 * (1024 / ini.ntPerPacket) ∧
    (chunk.offsets.length : Int) = chunk.nscales ∧ (chunk.scales.length : Int) = chunk.nscales
  nrfimaskbytes : ∀ ini chunk, make ini = some chunk → chunk.nrfimaskbytes = ini.nrfifreq * 1024 / 8 ∧
    (chunk.rfiMask.length : Int) = chunk.nrfimaskbytes

/-- **The arrays are copied in full**, without a division by zero and without a read outside of an array. -/
structure Copies (make : Initializer → Option (AssembledChunk F)) (a : Args F) : Prop where
  divides  : chunkInit make a ≠ .error .divisionByZero
  inBounds : chunkInit make a ≠ .error .outOfBounds
  full     : ∀ chunk, chunkInit make a = .ok chunk →
    chunk.data = a.data.data ∧ chunk.offsets = a.offset.data ∧ chunk.scales = a.scale.data
  mask     : ∀ chunk rfi, chunkInit make a = .ok chunk → a.rfi = some rfi → ∀ i < (chunk.nrfimaskbytes.tdiv 8).toNat,
    ∃ x, rfi.data[i]? = some x ∧ chunk.rfiMask[i]? = some (bval x)

/-- The shapes are those of a chunk, with nothing to round. -/
structure Args.Exact (a : Args F) : Prop where
  nf          : 1024 ∣ a.data.dim0
  nf_lt       : a.data.dim0 < 2 ^ 41
  scale       : a.scale.dim0 = 1024
  ntCoarse    : a.scale.dim1 ∣ 1024
  offset      : a.offset.dim0 = 1024
  offset_dim1 : a.offset.dim1 = a.scale.dim1

/-! ### Dimensions -/

theorem toInt_le (n : Nat) : toInt n ≤ n := by
  unfold toInt
  rw [Int.bmod_def]
  omega

theorem toInt_eq_self {n : Nat} : toInt n = n ↔ n < 2 ^ 31 := by
  unfold toInt
  rw [Int.bmod_def]
  omega

theorem le_of_toInt {n m : Nat} (h : toInt n = m) (hne : n ≠ m) : 2 ^ 32 ≤ n := by
  unfold toInt at h
  rw [Int.bmod_def] at h
  omega

theorem ndata_eq_iff {nf : Nat} : 1024 * toInt (nf / 1024) * 1024 = ((nf * 1024 : Nat) : Int) ↔
    1024 ∣ nf ∧ nf < 2 ^ 41 := by
  unfold toInt
  rw [Int.bmod_def]
  omega

attribute [irreducible] toInt

theorem nupfreq_initializer (a : Args F) : (initializer a).nupfreq = toInt (a.data.dim0 / 1024) := rfl

theorem nrfifreq_initializer (a : Args F) : (initializer a).nrfifreq = (a.rfi.map (toInt ·.dim0)).getD 0 := rfl

theorem ntPerPacket_initializer (a : Args F) : (initializer a).ntPerPacket = (1024 : Int).tdiv (toInt a.scale.dim1) := rfl

/-! ### The mask -/

theorem packMask_eq_some {b : List Bool} {n : Int} {rfiMask : List UInt8} (hb : (n.tdiv 8).toNat ≤ b.length)
    (hmask : (n.tdiv 8).toNat ≤ rfiMask.length) : ∃ out, packMask b n rfiMask = some out ∧
      ∀ i < (n.tdiv 8).toNat, ∃ x, b[i]? = some x ∧ out[i]? = some (bval x) := by
  have hread : ∀ i < (n.tdiv 8).toNat, b[i]? = some (b.getD i false) := fun i hi => by
    rw [List.getD_eq_getElem?_getD, List.getElem?_eq_getElem (hi.trans_le hb)]
    rfl
  have hstores : (List.range (n.tdiv 8).toNat).mapM (fun i => b[i]?.map (fun x => (i, bval x))) =
      some ((List.range (n.tdiv 8).toNat).map (fun i => (i, bval (b.getD i false)))) :=
    Fallible.mapM_eq_some (fun i hi => by rw [hread i (List.mem_range.1 hi), Option.map_some])
  obtain ⟨out, hout⟩ := (Buffers.writeAll_eq_some
      ((List.range (n.tdiv 8).toNat).map (fun i => (i, bval (b.getD i false)))) rfiMask).2 (by
    intro w hw
    obtain ⟨i, hi, rfl⟩ := List.mem_map.1 hw
    exact (List.mem_range.1 hi).trans_le hmask)
  have hget := Buffers.getElem?_writeAll (f := fun i => bval (b.getD i false)) hout (by
    intro w hw
    obtain ⟨i, -, rfl⟩ := List.mem_map.1 hw
    rfl)
  refine ⟨out, ?_, fun i hi => ⟨_, hread i hi, (hget i).1 ⟨_, List.mem_map.2 ⟨i, List.mem_range.2 hi, rfl⟩⟩⟩⟩
  unfold packMask
  rw [hstores]
  exact hout

/-! ### The copies -/

variable {make : Initializer → Option (AssembledChunk F)} {a : Args F} {chunk c : AssembledChunk F}

theorem memcpy_of_copyArrays (h : copyArrays a chunk = some c) :
    memcpy chunk.data a.data.data chunk.ndata = some c.data ∧
      memcpy chunk.offsets a.offset.data chunk.nscales = some c.offsets ∧
      memcpy chunk.scales a.scale.data chunk.nscales = some c.scales := by
  unfold copyArrays at h
  obtain ⟨data, hdata, h⟩ := Option.bind_eq_some_iff.1 h
  obtain ⟨offsets, hoffsets, h⟩ := Option.bind_eq_some_iff.1 h
  obtain ⟨scales, hscales, h⟩ := Option.bind_eq_some_iff.1 h
  cases hrfi : a.rfi with
  | none =>
    rw [hrfi] at h
    cases h
    exact ⟨hdata, hoffsets, hscales⟩
  | some rfi =>
    rw [hrfi] at h
    obtain ⟨rfiMask, -, h⟩ := Option.bind_eq_some_iff.1 h
    cases h
    exact ⟨hdata, hoffsets, hscales⟩

theorem copyArrays_of_sizes (hdata : (chunk.data.length : Int) = chunk.ndata)
    (hoffsets : (chunk.offsets.length : Int) = chunk.nscales) (hscales : (chunk.scales.length : Int) = chunk.nscales)
    (hrfi : ∀ rfi, a.rfi = some rfi → (chunk.nrfimaskbytes.tdiv 8).toNat ≤ rfi.data.length ∧
      (chunk.nrfimaskbytes.tdiv 8).toNat ≤ chunk.rfiMask.length)
    (hd : chunk.ndata = a.data.data.length) (ho : chunk.nscales = a.offset.data.length)
    (hs : chunk.nscales = a.scale.data.length) : ∃ c, copyArrays a chunk = some c ∧
      (c.data = a.data.data ∧ c.offsets = a.offset.data ∧ c.scales = a.scale.data) ∧
      ∀ rfi, a.rfi = some rfi → ∀ i < (c.nrfimaskbytes.tdiv 8).toNat,
        ∃ x, rfi.data[i]? = some x ∧ c.rfiMask[i]? = some (bval x) := by
  unfold copyArrays
  rw [(memcpy_fills hdata).2 hd, (memcpy_fills hoffsets).2 ho, (memcpy_fills hscales).2 hs]
  cases hrfi' : a.rfi with
  | none =>
    refine ⟨_, rfl, ⟨rfl, rfl, rfl⟩, fun rfi h => ?_⟩
    cases h
  | some rfi =>
    obtain ⟨hb, hmask⟩ := hrfi rfi hrfi'
    obtain ⟨out, hout, hget⟩ := packMask_eq_some hb hmask
    refine ⟨{ chunk with
      data := a.data.data, offsets := a.offset.data, scales := a.scale.data, rfiMask := out, hasRfiMask := true }, ?_,
      ⟨rfl, rfl, rfl⟩, ?_⟩
    · show (packMask rfi.data chunk.nrfimaskbytes chunk.rfiMask >>= _) = _
      rw [hout]
      rfl
    · rintro _ ⟨⟩
      exact hget

/-! ### The sizes -/

theorem divisor_of_tdiv {n : Int} {k : Nat} (h : (1024 : Int).tdiv n = 2 ^ k) : 0 < n ∧ n ≤ 1024 := by
  have hpos : (0 : Int) < 2 ^ k := Int.pow_pos (by decide)
  rw [Int.tdiv_eq_ediv_of_nonneg (by decide)] at h
  constructor
  · by_contra hn
    have hle := Int.ediv_nonpos_of_nonneg_of_nonpos (by decide : (0 : Int) ≤ 1024) (not_lt.1 hn)
    omega
  · by_contra hn
    have hzero := Int.ediv_eq_zero_of_lt (by decide : (0 : Int) ≤ 1024) (not_le.1 hn)
    omega

theorem div_two_pow {k : Nat} (hk : k ≤ 10) : (1024 : Int) / 2 ^ k = 2 ^ (10 - k) := by
  have hmul : (1024 : Int) = 2 ^ k * 2 ^ (10 - k) := by
    rw [← pow_add, Nat.add_sub_cancel' hk]
    norm_num
  rw [hmul, Int.mul_ediv_cancel_left _ (by positivity)]

/-- Where the packet length is a power of two, the scales fill the array if and only if nothing has been rounded. -/
theorem nscales_eq_iff {s0 s1 k : Nat} (hk : k ≤ 10) (h0 : toInt s0 = 1024) (h : (1024 : Int).tdiv (toInt s1) = 2 ^ k) :
    (1024 : Int) * (1024 / 2 ^ k) = (s0 * s1 : Nat) ↔ s0 = 1024 ∧ s1 ∣ 1024 := by
  obtain ⟨hpos, hle⟩ := divisor_of_tdiv h
  have hs1 := toInt_le s1
  have hm : (2 : Int) ^ (10 - k) = ((2 ^ (10 - k) : Nat) : Int) := by push_cast; rfl
  have hdvd : 2 ^ (10 - k) ∣ 1024 := (pow_dvd_pow 2 (Nat.sub_le 10 k)).trans (by norm_num)
  have hm_le : 2 ^ (10 - k) ≤ 1024 := Nat.le_of_dvd (by decide) hdvd
  rw [div_two_pow hk, hm]
  constructor
  · intro heq
    have heq : 1024 * 2 ^ (10 - k) = s0 * s1 := by exact_mod_cast heq
    have hs0 : s0 = 1024 := by
      by_contra hne
      have hbig := le_of_toInt h0 hne
      have hmul := Nat.mul_le_mul hbig (show 1 ≤ s1 by omega)
      omega
    rw [hs0] at heq
    exact ⟨hs0, Nat.eq_of_mul_eq_mul_left (by decide) heq ▸ hdvd⟩
  · rintro ⟨rfl, d, hd⟩
    have hlt : s1 < 2 ^ 31 := by
      have hle := Nat.le_of_dvd (by decide) ⟨d, hd⟩
      omega
    rw [toInt_eq_self.2 hlt] at h hpos
    have hd' : d = 2 ^ k := by
      have hdiv : (1024 : Int).tdiv s1 = d := by
        rw [Int.tdiv_eq_ediv_of_nonneg (by decide), show (1024 : Int) = s1 * d from mod_cast hd,
          Int.mul_ediv_cancel_left _ hpos.ne']
      exact_mod_cast hdiv.symm.trans h
    have hs1_eq : s1 = 2 ^ (10 - k) := by
      have hmul : 2 ^ k * s1 = 2 ^ k * 2 ^ (10 - k) := by
        rw [← pow_add, Nat.add_sub_cancel' hk, ← hd', Nat.mul_comm]
        exact hd.symm
      exact Nat.eq_of_mul_eq_mul_left (by positivity) hmul
    rw [hs1_eq]
    push_cast
    rfl

structure Args.Checked (a : Args F) : Prop where
  nt       : a.data.dim1 = 1024
  scale    : toInt a.scale.dim0 = 1024
  offset   : toInt a.offset.dim0 = 1024
  ntCoarse : toInt a.offset.dim1 = toInt a.scale.dim1
  rfi      : ∀ rfi, a.rfi = some rfi → toInt rfi.dim1 = 1024

theorem checked_of_checkShapes (h : checkShapes a = .ok ()) : a.Checked := by
  unfold checkShapes at h
  split at h
  · cases h
  rename_i hnt
  split at h
  · cases h
  rename_i hscale
  split at h
  · cases h
  rename_i hoffset
  obtain ⟨hoffset, hntCoarse⟩ := not_or.1 hoffset
  refine ⟨Int.ofNat.inj (not_not.1 hnt), not_not.1 hscale, not_not.1 hoffset, not_not.1 hntCoarse, fun rfi hrfi => ?_⟩
  unfold checkRfi at h
  rw [hrfi] at h
  dsimp only at h
  split at h
  · cases h
  · rename_i hdim1
    exact not_not.1 hdim1

theorem mask_fits (hmake : Makes make) (hchecked : a.Checked) (hchunk : make (initializer a) = some chunk)
    {rfi : NpyArray Bool} (hrfi : a.rfi = some rfi) : (chunk.nrfimaskbytes.tdiv 8).toNat ≤ rfi.data.length ∧
      (chunk.nrfimaskbytes.tdiv 8).toNat ≤ chunk.rfiMask.length := by
  obtain ⟨hbytes, hlength⟩ := hmake.nrfimaskbytes _ _ hchunk
  have hdim1 := hchecked.rfi rfi hrfi
  have hnrfifreq : (initializer a).nrfifreq = toInt rfi.dim0 := by
    rw [nrfifreq_initializer, hrfi, Option.map_some, Option.getD_some]
  rw [hnrfifreq] at hbytes
  have hle0 := toInt_le rfi.dim0
  have hle1 := toInt_le rfi.dim1
  have hmul : (toInt rfi.dim0).toNat * 1024 ≤ rfi.dim0 * rfi.dim1 := Nat.mul_le_mul (by omega) (by omega)
  rw [rfi.length, Int.tdiv_eq_ediv_of_nonneg (by omega)]
  omega

theorem sizes_iff (hmake : Makes make) (hchecked : a.Checked) (hchunk : make (initializer a) = some chunk) :
    (chunk.ndata = a.data.data.length ∧ chunk.nscales = a.offset.data.length ∧ chunk.nscales = a.scale.data.length) ↔
      a.Exact := by
  obtain ⟨k, hk, hpow⟩ := hmake.ntPerPacket _ _ hchunk
  rw [(hmake.ndata _ _ hchunk).1, (hmake.nscales _ _ hchunk).1, hpow, nupfreq_initializer, a.data.length,
    a.offset.length, a.scale.length, hchecked.nt, ndata_eq_iff]
  rw [ntPerPacket_initializer] at hpow
  rw [nscales_eq_iff hk hchecked.scale hpow]
  rw [← hchecked.ntCoarse] at hpow
  rw [nscales_eq_iff hk hchecked.offset hpow]
  constructor
  · rintro ⟨⟨hnf, hlt⟩, ⟨ho, hodvd⟩, hs, hsdvd⟩
    refine ⟨hnf, hlt, hs, hsdvd, ho, ?_⟩
    have hsmall : ∀ n : Nat, n ∣ 1024 → toInt n = n := fun n hn => by
      have hle := Nat.le_of_dvd (by decide) hn
      exact toInt_eq_self.2 (by omega)
    have heq := hchecked.ntCoarse
    rw [hsmall _ hodvd, hsmall _ hsdvd] at heq
    exact Int.ofNat.inj heq
  · intro h
    exact ⟨⟨h.nf, h.nf_lt⟩, ⟨h.offset, h.offset_dim1 ▸ h.ntCoarse⟩, h.scale, h.ntCoarse⟩

section
variable (hchecks : checkShapes a = .ok ())
include hchecks

theorem chunkInit_zero (h : toInt a.scale.dim1 = 0) : chunkInit make a = .error .divisionByZero := by
  unfold chunkInit
  rw [hchecks, h]
  rfl

theorem chunkInit_none (h : toInt a.scale.dim1 ≠ 0) (hchunk : make (initializer a) = none) :
    chunkInit make a = .error .makeThrows := by
  unfold chunkInit
  rw [hchecks, if_neg h, hchunk]
  rfl

theorem chunkInit_outOfBounds (h : toInt a.scale.dim1 ≠ 0) (hchunk : make (initializer a) = some chunk)
    (hcopy : copyArrays a chunk = none) : chunkInit make a = .error .outOfBounds := by
  unfold chunkInit
  rw [hchecks, if_neg h, hchunk]
  simp only [hcopy]
  rfl

theorem chunkInit_ok (h : toInt a.scale.dim1 ≠ 0) (hchunk : make (initializer a) = some chunk)
    (hcopy : copyArrays a chunk = some c) : chunkInit make a = .ok c := by
  unfold chunkInit
  rw [hchecks, if_neg h, hchunk]
  simp only [hcopy]
  rfl

end

theorem copies_of_error {e : Failure} (hrun : chunkInit make a = .error e) (hzero : e ≠ .divisionByZero)
    (hbounds : e ≠ .outOfBounds) : Copies make a := by
  refine ⟨?_, ?_, fun c h => ?_, fun c rfi h => ?_⟩
  · rw [hrun]
    exact fun h => hzero (Except.error.inj h)
  · rw [hrun]
    exact fun h => hbounds (Except.error.inj h)
  · cases hrun.symm.trans h
  · cases hrun.symm.trans h

/-- **The arrays are copied in full if and only if their shapes are exactly those of a chunk**, unless there is none. -/
theorem copies_iff (hmake : Makes make) (hchecks : checkShapes a = .ok ()) : Copies make a ↔
    toInt a.scale.dim1 ≠ 0 ∧ (make (initializer a) = none ∨ a.Exact) := by
  have hchecked := checked_of_checkShapes hchecks
  by_cases hzero : toInt a.scale.dim1 = 0
  · exact ⟨fun h => absurd (chunkInit_zero hchecks hzero) h.divides, fun h => absurd hzero h.1⟩
  cases hchunk : make (initializer a) with
  | none =>
    have hcopies := copies_of_error (chunkInit_none hchecks hzero hchunk) (by decide) (by decide)
    exact ⟨fun _ => ⟨hzero, .inl rfl⟩, fun _ => hcopies⟩
  | some chunk =>
    obtain ⟨-, hdata⟩ := hmake.ndata _ _ hchunk
    obtain ⟨-, hoffsets, hscales⟩ := hmake.nscales _ _ hchunk
    have hsizes := sizes_iff hmake hchecked hchunk
    constructor
    · intro h
      refine ⟨hzero, .inr (hsizes.1 ?_)⟩
      cases hcopy : copyArrays a chunk with
      | none => exact absurd (chunkInit_outOfBounds hchecks hzero hchunk hcopy) h.inBounds
      | some c =>
        obtain ⟨hd, ho, hs⟩ := h.full c (chunkInit_ok hchecks hzero hchunk hcopy)
        obtain ⟨hmd, hmo, hms⟩ := memcpy_of_copyArrays hcopy
        rw [hd] at hmd
        rw [ho] at hmo
        rw [hs] at hms
        exact ⟨(memcpy_fills hdata).1 hmd, (memcpy_fills hoffsets).1 hmo, (memcpy_fills hscales).1 hms⟩
    · rintro ⟨-, hnone | hexact⟩
      · cases hnone
      · obtain ⟨hd, ho, hs⟩ := hsizes.2 hexact
        obtain ⟨c, hcopy, hfull, hmask⟩ := copyArrays_of_sizes hdata hoffsets hscales
          (fun rfi hrfi => mask_fits hmake hchecked hchunk hrfi) hd ho hs
        have hrun := chunkInit_ok hchecks hzero hchunk hcopy
        refine ⟨?_, ?_, fun c' h => ?_, fun c' rfi h => ?_⟩
        · rw [hrun]
          intro h
          cases h
        · rw [hrun]
          intro h
          cases h
        · obtain rfl := Except.ok.inj (hrun.symm.trans h)
          exact hfull
        · obtain rfl := Except.ok.inj (hrun.symm.trans h)
          exact hmask rfi

/-! ### Arrays of one value -/

def filled {α : Type} (dim0 dim1 : Nat) (x : α) : NpyArray α := ⟨dim0, dim1, List.replicate (dim0 * dim1) x, List.length_replicate⟩

def zeros (ndata nscales nrfimaskbytes : Int) : AssembledChunk UInt32 :=
  ⟨ndata, nscales, nrfimaskbytes, List.replicate ndata.toNat 0, List.replicate nscales.toNat 0,
    List.replicate nscales.toNat 0, List.replicate nrfimaskbytes.toNat 0, false⟩

def plainMake (ini : Initializer) : Option (AssembledChunk UInt32) :=
  if (∃ k ≤ 10, ini.ntPerPacket = 2 ^ k) ∧ 0 ≤ ini.nupfreq ∧ 0 ≤ ini.nrfifreq then
    some (zeros (1024 * ini.nupfreq * 1024) (1024 * (1024 / ini.ntPerPacket)) (ini.nrfifreq * 1024 / 8))
  else none

theorem makes_plainMake : Makes plainMake := by
  have hlength : ∀ {α : Type} (n : Int) (x : α), 0 ≤ n → ((List.replicate n.toNat x).length : Int) = n := fun n x hn => by
    rw [List.length_replicate, Int.toNat_of_nonneg hn]
  have hall := fun ini chunk (h : plainMake ini = some chunk) => Option.ite_none_right_eq_some.1 h
  refine ⟨fun ini chunk h => (hall ini chunk h).1.1, fun ini chunk h => ?_, fun ini chunk h => ?_, fun ini chunk h => ?_⟩
  · obtain ⟨⟨-, hu, -⟩, hchunk⟩ := hall ini chunk h
    cases hchunk
    exact ⟨rfl, hlength _ _ (by omega)⟩
  · obtain ⟨⟨⟨k, -, hpow⟩, -, -⟩, hchunk⟩ := hall ini chunk h
    cases hchunk
    have hnonneg : 0 ≤ 1024 * (1024 / ini.ntPerPacket) := by
      rw [hpow]
      positivity
    exact ⟨rfl, hlength _ _ hnonneg, hlength _ _ hnonneg⟩
  · obtain ⟨⟨-, -, hr⟩, hchunk⟩ := hall ini chunk h
    cases hchunk
    exact ⟨rfl, hlength _ _ (by omega)⟩

def uniformArgs (ntCoarse : Nat) : Args UInt32 :=
  ⟨7, 384, 50, filled 1024 1024 128, filled 1024 ntCoarse 1, filled 1024 ntCoarse 0, none⟩

theorem checkShapes_uniformArgs (ntCoarse : Nat) : checkShapes (uniformArgs ntCoarse) = .ok () := by
  have hdim : toInt 1024 = 1024 := toInt_eq_self.2 (by decide)
  have hnt : ¬ ((uniformArgs ntCoarse).data.dim1 : Int) ≠ ntPerAssembledChunk := not_not.2 rfl
  have hscale : ¬ toInt (uniformArgs ntCoarse).scale.dim0 ≠ nfreqCoarseTot := not_not.2 hdim
  have hoffset : ¬ (toInt (uniformArgs ntCoarse).offset.dim0 ≠ nfreqCoarseTot ∨
      toInt (uniformArgs ntCoarse).offset.dim1 ≠ toInt (uniformArgs ntCoarse).scale.dim1) :=
    not_or.2 ⟨not_not.2 hdim, not_not.2 rfl⟩
  unfold checkShapes
  rw [if_neg hnt, if_neg hscale, if_neg hoffset]
  rfl

/-- Packets of 16 samples. -/
theorem copies_uniformArgs : Copies plainMake (uniformArgs 64) := by
  have hdim : toInt 64 = 64 := toInt_eq_self.2 (by decide)
  refine (copies_iff makes_plainMake (checkShapes_uniformArgs 64)).2 ⟨?_, .inr ⟨⟨1, rfl⟩, ?_, rfl, ⟨16, rfl⟩, rfl, rfl⟩⟩
  · show toInt 64 ≠ 0
    rw [hdim]
    decide
  · show 1024 < 2 ^ 41
    norm_num

/-- **Without any scales**, the packet length is 1024 divided by zero. -/
theorem not_copies_noScales : ¬ ∀ (make : Initializer → Option (AssembledChunk UInt32)) (a : Args UInt32),
    Makes make → checkShapes a = .ok () → Copies make a := by
  intro hall
  have hzero : toInt (uniformArgs 0).scale.dim1 = 0 := toInt_eq_self.2 (by decide)
  exact (hall plainMake (uniformArgs 0) makes_plainMake (checkShapes_uniformArgs 0)).divides
    (chunkInit_zero (checkShapes_uniformArgs 0) hzero)

end ChunkInit
end FrbL1
