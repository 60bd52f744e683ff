import FrbL1.Buffers
import FrbL1.Fallible
import FrbL1.L0Streams
/-!
# ChunkReplay — chunk files that the L0 simulator replays

Each thread decodes the whole band of a chunk into a buffer that has the size of its own beams and coarse frequencies,
and sends the buffer as these (`getElem?_decodePiece`).  The band fits if there are as many beams as threads in a
stream, and what is sent is the chunk if there is one of both (`replay_faithful_iff`).
-/
namespace FrbL1
namespace L0

open Blocks (row_div row_lt row_lt_iff row_mod)
open Buffers (writeAll Rows writeAll_eq_some writeAll_rows getElem?_rows)
open Config
open Fallible (mapM_forall₂ forall₂_of_mapM)

/-! ## The library -/

/-- An `assembled_chunk` of one beam, with the samples that it decodes to, by row and time. -/
structure AssembledChunk where
  nupfreq     : Int
  ntPerPacket : Int
  ntCoarse    : Int
  fpgaBegin   : Int
  intensity   : Nat → Nat → ℚ
  weights     : Nat → Nat → ℚ

structure FrbIo where
  /-- `ostream->target_gbps`, which need not be the one of the initializer. -/
  targetGbps         : Ostream → ℚ
  eltsPerChunk       : Ostream → Nat
  fpgaCountsPerChunk : Ostream → Int
  /-- The writes into the two buffers. -/
  decodeSubset       : AssembledChunk → (t0 nt istride wstride : Nat) → List (Nat × ℚ) × List (Nat × ℚ)
  /-- Where `send_chunk` reads a sample: for a stride, by the places of its beam, its coarse frequency and its row. -/
  place              : Ostream → (stride ib jc iup t : Nat) → Nat

structure FrbIo.Documented (io : FrbIo) : Prop where
  eltsPerChunk : ∀ o, io.eltsPerChunk o =
    o.beamIds.length * (o.coarseFreqIds.length * o.nupfreq.toNat) * o.ntPerChunk.toNat
  intensity : ∀ chunk t0 nt istride wstride, Rows (io.decodeSubset chunk t0 nt istride wstride).1 chunk.intensity
    (nfreqCoarseTot * chunk.nupfreq).toNat t0 nt istride
  weights   : ∀ chunk t0 nt istride wstride, Rows (io.decodeSubset chunk t0 nt istride wstride).2 chunk.weights
    (nfreqCoarseTot * chunk.nupfreq).toNat t0 nt wstride
  place     : ∀ o stride ib jc iup t, io.place o stride ib jc iup t =
    ((ib * o.coarseFreqIds.length + jc) * o.nupfreq.toNat + iup) * stride + t

/-! ## `send_chunks` -/

inductive Fault
  | aborted
  | outOfBounds
  deriving DecidableEq

structure Sent where
  intensity : List ℚ
  weights   : List ℚ
  stride    : Nat
  fpgaCount : Int

def nsub (o : Ostream) (chunk : AssembledChunk) : Nat :=
  ((chunk.ntCoarse * chunk.ntPerPacket).tdiv o.ntPerChunk).toNat

def pieces (o : Ostream) (chunks : List AssembledChunk) : List (AssembledChunk × Nat) :=
  chunks.flatMap (fun chunk => (List.range (nsub o chunk)).map (fun i => (chunk, i)))

def FrbIo.decodePiece (io : FrbIo) (o : Ostream) (p : AssembledChunk × Nat) : Except Fault Sent :=
  let nt := o.ntPerChunk.toNat
  let writes := io.decodeSubset p.1 (p.2 * nt) nt nt nt
  match writeAll writes.1 (List.replicate (io.eltsPerChunk o) 0), writeAll writes.2 (List.replicate (io.eltsPerChunk o) 1) with
  | some intensity, some weights =>
    .ok ⟨intensity, weights, nt, (p.1.fpgaBegin + (p.2 * nt : Nat) * io.fpgaCountsPerChunk o).bmod (2 ^ 64)⟩
  | _, _ => .error .outOfBounds

def FrbIo.sendChunks (io : FrbIo) (o : Ostream) (chunks : List AssembledChunk) : Except Fault (List Sent) :=
  if io.targetGbps o > 0 then (pieces o chunks).mapM (io.decodePiece o) else .error .aborted

/-- `send_chunk_files`.  Nothing is sent unless all files can be read. -/
def FrbIo.sendChunkFiles (io : FrbIo) (readMsgpackFile : List Char → Option AssembledChunk) (o : Ostream)
    (filenames : List (List Char)) : Except Fault (List Sent) :=
  match filenames.mapM readMsgpackFile with
  | some chunks => io.sendChunks o chunks
  | none        => .ok []

/-- The threads of `main`. -/
def FrbIo.replay (io : FrbIo) (readMsgpackFile : List Char → Option AssembledChunk) (l : L0Params)
    (datafiles : List (List Char)) : List (Except Fault (List Sent)) :=
  l.streams.map (fun o => io.sendChunkFiles readMsgpackFile o datafiles)

/-! ## What is sent -/

/-- The sample that is sent for a beam and a row of a coarse frequency. -/
def FrbIo.sample (io : FrbIo) (o : Ostream) (x : Sent) (ib jc iup t : Nat) : Option ℚ × Option ℚ :=
  let k := io.place o x.stride ib jc iup t
  (x.intensity[k]?, x.weights[k]?)

/-- What is sent under a coarse frequency id is this frequency of a piece, for all beams. -/
def FrbIo.IsPiece (io : FrbIo) (o : Ostream) (p : AssembledChunk × Nat) (x : Sent) : Prop :=
  ∀ ib < o.beamIds.length, ∀ jc (c : Int), o.coarseFreqIds[jc]? = some c → ∀ iup < o.nupfreq.toNat,
    ∀ t < o.ntPerChunk.toNat,
      let row := c.toNat * o.nupfreq.toNat + iup
      let time := p.2 * o.ntPerChunk.toNat + t
      io.sample o x ib jc iup t = (some (p.1.intensity row time), some (p.1.weights row time))

def FrbIo.Inside (io : FrbIo) (o : Ostream) (p : AssembledChunk × Nat) : Prop :=
  let nt := o.ntPerChunk.toNat
  let writes := io.decodeSubset p.1 (p.2 * nt) nt nt nt
  (∀ w ∈ writes.1, w.1 < io.eltsPerChunk o) ∧ ∀ w ∈ writes.2, w.1 < io.eltsPerChunk o

theorem decodePiece_iff {io : FrbIo} {o : Ostream} {p : AssembledChunk × Nat} :
    (∃ x, io.decodePiece o p = .ok x) ↔ io.Inside o p := by
  unfold FrbIo.decodePiece FrbIo.Inside
  simp only
  constructor
  · rintro ⟨x, hx⟩
    split at hx
    · rename_i intensity weights hi hw
      have hin := (writeAll_eq_some _ _).1 ⟨_, hi⟩
      have hin' := (writeAll_eq_some _ _).1 ⟨_, hw⟩
      rw [List.length_replicate] at hin hin'
      exact ⟨hin, hin'⟩
    · cases hx
  · rintro ⟨hin, hin'⟩
    rw [← List.length_replicate (n := io.eltsPerChunk o) (a := (0 : ℚ))] at hin
    rw [← List.length_replicate (n := io.eltsPerChunk o) (a := (1 : ℚ))] at hin'
    obtain ⟨intensity, hi⟩ := (writeAll_eq_some _ _).2 hin
    obtain ⟨weights, hw⟩ := (writeAll_eq_some _ _).2 hin'
    rw [hi, hw]
    exact ⟨_, rfl⟩

section
variable {io : FrbIo} (hio : io.Documented) {o : Ostream} {p : AssembledChunk × Nat}
include hio

theorem FrbIo.Documented.inside_iff : io.Inside o p ↔
    (nfreqCoarseTot * p.1.nupfreq).toNat * o.ntPerChunk.toNat ≤ io.eltsPerChunk o := by
  have hi := hio.intensity p.1 (p.2 * o.ntPerChunk.toNat) o.ntPerChunk.toNat o.ntPerChunk.toNat o.ntPerChunk.toNat
  have hw := hio.weights p.1 (p.2 * o.ntPerChunk.toNat) o.ntPerChunk.toNat o.ntPerChunk.toNat o.ntPerChunk.toNat
  have hfit := writeAll_rows hi (List.replicate (io.eltsPerChunk o) 0)
  have hfit' := writeAll_rows hw (List.replicate (io.eltsPerChunk o) 0)
  rw [writeAll_eq_some, List.length_replicate] at hfit hfit'
  unfold FrbIo.Inside
  simp only
  rw [hfit, hfit', and_self]

/-- **The sample of a beam and a coarse frequency**: they count as one row number, beam by beam, into the whole band. -/
theorem FrbIo.Documented.sample_decodePiece {x : Sent} (hx : io.decodePiece o p = .ok x) {ib jc iup t : Nat}
    (hb : ib < o.beamIds.length) (hc : jc < o.coarseFreqIds.length) (hu : iup < o.nupfreq.toNat)
    (ht : t < o.ntPerChunk.toNat) :
    let row := (ib * o.coarseFreqIds.length + jc) * o.nupfreq.toNat + iup
    let time := p.2 * o.ntPerChunk.toNat + t
    io.sample o x ib jc iup t = if row < (nfreqCoarseTot * p.1.nupfreq).toNat then
      (some (p.1.intensity row time), some (p.1.weights row time)) else (some 0, some 1) := by
  intro row time
  unfold FrbIo.decodePiece at hx
  simp only at hx
  split at hx
  · rename_i intensity weights hi hw
    obtain rfl := Except.ok.inj hx
    have hsample := getElem?_rows (hio.intensity _ _ _ _ _) hi (row * o.ntPerChunk.toNat + t)
    have hsample' := getElem?_rows (hio.weights _ _ _ _ _) hw (row * o.ntPerChunk.toNat + t)
    have hrow : row < o.beamIds.length * (o.coarseFreqIds.length * o.nupfreq.toNat) := by
      rw [← Nat.mul_assoc]
      exact row_lt (row_lt hb hc) hu
    have hk : row * o.ntPerChunk.toNat + t < io.eltsPerChunk o := by
      rw [hio.eltsPerChunk]
      exact row_lt hrow ht
    rw [row_div ht, row_mod ht, List.getElem?_replicate, if_pos hk] at hsample hsample'
    simp only [row_lt_iff ht] at hsample hsample'
    unfold FrbIo.sample
    rw [hio.place]
    simp only
    rw [show (ib * o.coarseFreqIds.length + jc) * o.nupfreq.toNat + iup = row from rfl, hsample, hsample']
    split <;> rfl
  · cases hx

end

/-! ## The shape of the streams -/

theorem length_beamIds_makeOstream (l : L0Params) (ithread : Nat) :
    (l.makeOstream ithread).beamIds.length = l.nbeamsPerStream.toNat := by
  unfold L0Params.makeOstream
  rw [length_vrange]
  congr 1
  ring

theorem length_coarseFreqIds_makeOstream (l : L0Params) (ithread : Nat) :
    (l.makeOstream ithread).coarseFreqIds.length = l.nfreqCoarsePerThread.toNat := by
  unfold L0Params.makeOstream
  rw [length_vrange]
  congr 1
  ring

theorem ntPerChunk_pos (l : L0Params) (ithread : Nat) : 0 < (l.makeOstream ithread).ntPerChunk.toNat := by
  show 0 < ntPerAssembledChunk.toNat
  decide

theorem getElem?_coarseFreqIds {l : L0Params} (hw : l.Wired) {ithread jc : Nat} {c : Int} :
    (l.makeOstream ithread).coarseFreqIds[jc]? = some c ↔ jc < l.nfreqCoarsePerThread.toNat ∧
      c = (l.jthread ithread * l.nfreqCoarsePerThread.toNat + jc : Nat) := by
  have hpos := hw.nfreqCoarsePerThread_pos
  have hget : jc < l.nfreqCoarsePerThread.toNat → (l.makeOstream ithread).coarseFreqIds[jc]? =
      some (l.jthread ithread * l.nfreqCoarsePerThread.toNat + jc : Nat) := fun hlt => by
    refine (getElem?_vrange (by rw [Int.add_mul]; omega)).trans (congrArg some ?_)
    push_cast
    rw [Int.toNat_of_nonneg hpos.le]
  constructor
  · intro h
    have hlt := (List.getElem?_eq_some_iff.1 h).1
    rw [length_coarseFreqIds_makeOstream] at hlt
    exact ⟨hlt, Option.some.inj (h.symm.trans (hget hlt))⟩
  · rintro ⟨hlt, rfl⟩
    exact hget hlt

/-- Each coarse frequency is sent under its id by one thread of each stream, at one place. -/
theorem sent_once {l : L0Params} (hw : l.Wired) {istream : Nat} (hi : istream < l.nstreams.toNat) {c : Nat}
    (hc : (c : Int) < nfreqCoarse) : ∃! x : Nat × Nat, l.istream x.1 = istream ∧
      ∃ o, l.streams[x.1]? = some o ∧ o.coarseFreqIds[x.2]? = some (c : Int) := by
  have hpos : 0 < l.nfreqCoarsePerThread.toNat := by
    have h0 := hw.nfreqCoarsePerThread_pos
    omega
  have hnfreq : c < l.nthreadsPerStream.toNat * l.nfreqCoarsePerThread.toNat := by
    rw [← Int.toNat_mul hw.nthreadsPerStream_pos.le hw.nfreqCoarsePerThread_pos.le, ← hw.nfreq]
    omega
  have hjthread : c / l.nfreqCoarsePerThread.toNat < l.nthreadsPerStream.toNat :=
    Nat.div_lt_of_lt_mul (by rwa [Nat.mul_comm])
  have hdm : c / l.nfreqCoarsePerThread.toNat * l.nfreqCoarsePerThread.toNat + c % l.nfreqCoarsePerThread.toNat = c := by
    rw [Nat.mul_comm]
    exact Nat.div_add_mod _ _
  refine ⟨(istream * l.nthreadsPerStream.toNat + c / l.nfreqCoarsePerThread.toNat, c % l.nfreqCoarsePerThread.toNat),
    ⟨row_div hjthread, _, hw.getElem?_streams ?_, (getElem?_coarseFreqIds hw).2 ⟨Nat.mod_lt _ hpos, ?_⟩⟩, ?_⟩
  · rw [hw.nthreads_eq]
    exact row_lt hi hjthread
  · rw [L0Params.jthread, row_mod hjthread, hdm]
  · rintro ⟨ithread, jc⟩ ⟨hs, o, ho, hget⟩
    obtain ⟨-, rfl⟩ := hw.of_getElem?_streams ho
    obtain ⟨hjc, hceq⟩ := (getElem?_coarseFreqIds hw).1 hget
    have hceq : c = l.jthread ithread * l.nfreqCoarsePerThread.toNat + jc := by exact_mod_cast hceq
    have hdiv : c / l.nfreqCoarsePerThread.toNat = l.jthread ithread := hceq ▸ row_div hjc
    have hmod : c % l.nfreqCoarsePerThread.toNat = jc := hceq ▸ row_mod hjc
    refine Prod.ext ?_ hmod.symm
    rw [hdiv, ← hs]
    exact (Nat.div_add_mod' ithread l.nthreadsPerStream.toNat).symm

/-! ## All of it -/

theorem l0Params_nupfreq {env : L0Env} {gbps : ℚ} {p : Paramfile} {l : L0Params} {R : List String}
    (h : (l0Params env gbps p).run [] = .ok (l, R)) : 0 < l.nupfreq := by
  obtain ⟨l₀, R₀, l₁, l₂, n, streams, -, -, -, hsizes, -, rfl⟩ := l0Params_parts h
  obtain ⟨nb, nt, nf, nu, -, -, -, hnu, rfl⟩ := deriveSizes_ok hsizes
  exact (xdiv_eq_ok hnu).2.2

structure Replays (io : FrbIo) (readMsgpackFile : List Char → Option AssembledChunk) (l : L0Params)
    (datafiles : List (List Char)) (chunks : List AssembledChunk) : Prop where
  inside : ∀ o ∈ l.streams, ∀ q ∈ pieces o chunks, io.Inside o q
  sends  : ∀ (ithread : Nat) (o : Ostream), l.streams[ithread]? = some o → ∃ sent,
    (io.replay readMsgpackFile l datafiles)[ithread]? = some (Except.ok sent) ∧
      List.Forall₂ (io.IsPiece o) (pieces o chunks) sent
  once   : ∀ istream < l.nstreams.toNat, ∀ c : Nat, (c : Int) < nfreqCoarse → ∃! x : Nat × Nat,
    l.istream x.1 = istream ∧ ∃ o, l.streams[x.1]? = some o ∧ o.coarseFreqIds[x.2]? = some (c : Int)

section
variable {l : L0Params} (hw : l.Wired) (hu : 0 < l.nupfreq)
include hw hu

theorem rows_band : (nfreqCoarseTot * l.nupfreq).toNat =
    l.nthreadsPerStream.toNat * (l.nfreqCoarsePerThread.toNat * l.nupfreq.toNat) := by
  have hnfreq : nfreqCoarseTot = l.nthreadsPerStream * l.nfreqCoarsePerThread := hw.nfreq
  rw [hnfreq, Int.toNat_mul (Int.mul_nonneg hw.nthreadsPerStream_pos.le hw.nfreqCoarsePerThread_pos.le) hu.le,
    Int.toNat_mul hw.nthreadsPerStream_pos.le hw.nfreqCoarsePerThread_pos.le, Nat.mul_assoc]

theorem inside_iff {io : FrbIo} (hio : io.Documented) {q : AssembledChunk × Nat} (hq : q.1.nupfreq = l.nupfreq)
    (ithread : Nat) : io.Inside (l.makeOstream ithread) q ↔ l.nthreadsPerStream ≤ l.nbeamsPerStream := by
  have hf := hw.nfreqCoarsePerThread_pos
  have hb := hw.nbeamsPerStream_pos
  have hrows : 0 < l.nfreqCoarsePerThread.toNat * l.nupfreq.toNat := Nat.mul_pos (by omega) (by omega)
  rw [hio.inside_iff, hio.eltsPerChunk, hq, rows_band hw hu, length_beamIds_makeOstream,
    length_coarseFreqIds_makeOstream]
  show _ * (_ * l.nupfreq.toNat) * _ ≤ _ * (_ * l.nupfreq.toNat) * _ ↔ _
  rw [Nat.mul_le_mul_right_iff (ntPerChunk_pos l ithread), Nat.mul_le_mul_right_iff hrows]
  omega

theorem isPiece_of_one {io : FrbIo} (hio : io.Documented) (ht : l.nthreadsPerStream = 1) (hb : l.nbeamsPerStream = 1)
    {q : AssembledChunk × Nat} (hq : q.1.nupfreq = l.nupfreq) {ithread : Nat} {x : Sent}
    (hx : io.decodePiece (l.makeOstream ithread) q = .ok x) : io.IsPiece (l.makeOstream ithread) q x := by
  intro ib hib jc c hc iup hiup t hti row time
  obtain ⟨hjc, rfl⟩ := (getElem?_coarseFreqIds hw).1 hc
  have hsample := hio.sample_decodePiece hx hib (by rwa [length_coarseFreqIds_makeOstream]) hiup hti
  have hjthread : l.jthread ithread = 0 := by
    unfold L0Params.jthread
    rw [ht]
    exact Nat.mod_one _
  rw [length_beamIds_makeOstream, hb] at hib
  obtain rfl : ib = 0 := Nat.lt_one_iff.1 hib
  have hrow : (0 * (l.makeOstream ithread).coarseFreqIds.length + jc) * (l.makeOstream ithread).nupfreq.toNat + iup =
      row := by
    simp [row, hjthread]
  rw [hrow] at hsample
  refine hsample.trans (if_pos ?_)
  rw [hq, rows_band hw hu, ht]
  show row < 1 * _
  rw [Nat.one_mul, ← hrow, Nat.zero_mul, Nat.zero_add]
  exact row_lt hjc hiup

end

/-! ### Streams of another shape -/

def rampChunk (nupfreq : Int) : AssembledChunk where
  nupfreq     := nupfreq
  ntPerPacket := 16
  ntCoarse    := 64
  fpgaBegin   := 0
  intensity   := fun row _ => row + 1
  weights     := fun _ _ => 1

theorem pieces_rampChunk (l : L0Params) (ithread : Nat) (nupfreq : Int) :
    pieces (l.makeOstream ithread) [rampChunk nupfreq] = [(rampChunk nupfreq, 0)] := by
  have hnsub : nsub (l.makeOstream ithread) (rampChunk nupfreq) = 1 := rfl
  simp [pieces, hnsub]

theorem not_isPiece_rampChunk {l : L0Params} (hw : l.Wired) (hu : 0 < l.nupfreq) {io : FrbIo} (hio : io.Documented)
    (hb : 1 < l.nbeamsPerStream) {x : Sent} (hx : io.decodePiece (l.makeOstream 0) (rampChunk l.nupfreq, 0) = .ok x) :
    ¬ io.IsPiece (l.makeOstream 0) (rampChunk l.nupfreq, 0) x := by
  intro hpiece
  have hf := hw.nfreqCoarsePerThread_pos
  have hib : 1 < (l.makeOstream 0).beamIds.length := by
    rw [length_beamIds_makeOstream]
    omega
  have hjc : 0 < (l.makeOstream 0).coarseFreqIds.length := by
    rw [length_coarseFreqIds_makeOstream]
    omega
  have hiup : 0 < (l.makeOstream 0).nupfreq.toNat := by
    show 0 < l.nupfreq.toNat
    omega
  have hc : (l.makeOstream 0).coarseFreqIds[0]? = some 0 :=
    (getElem?_coarseFreqIds hw).2 ⟨by omega, by simp [L0Params.jthread]⟩
  have hwant := hpiece 1 hib 0 0 hc 0 hiup 0 (ntPerChunk_pos l 0)
  rw [hio.sample_decodePiece hx hib hjc hiup (ntPerChunk_pos l 0)] at hwant
  have hpos : 0 < (l.makeOstream 0).coarseFreqIds.length * (l.makeOstream 0).nupfreq.toNat := Nat.mul_pos hjc hiup
  simp only [rampChunk, Int.toNat_zero, Nat.zero_mul, Nat.add_zero, Nat.one_mul] at hwant
  split at hwant
  · have hval := Option.some.inj (Prod.mk.inj hwant).1
    norm_cast at hval
    omega
  · have hval := Option.some.inj (Prod.mk.inj hwant).1
    norm_num at hval

/-! ### The replay -/

theorem getElem?_replay {io : FrbIo} {read : List Char → Option AssembledChunk} {l : L0Params}
    {files : List (List Char)} {chunks : List AssembledChunk} (hread : files.mapM read = some chunks) {ithread : Nat}
    {o : Ostream} (ho : l.streams[ithread]? = some o) :
    (io.replay read l files)[ithread]? = some (io.sendChunks o chunks) := by
  unfold FrbIo.replay FrbIo.sendChunkFiles
  rw [List.getElem?_map, ho, hread]
  rfl

theorem replays_of_one {l : L0Params} (hw : l.Wired) (hu : 0 < l.nupfreq) {io : FrbIo} (hio : io.Documented)
    (hgbps : ∀ o ∈ l.streams, 0 < io.targetGbps o) (ht : l.nthreadsPerStream = 1) (hb : l.nbeamsPerStream = 1)
    {read : List Char → Option AssembledChunk} {files : List (List Char)} {chunks : List AssembledChunk}
    (hread : files.mapM read = some chunks) (hchunks : ∀ chunk ∈ chunks, chunk.nupfreq = l.nupfreq) :
    Replays io read l files chunks := by
  have hnupfreq : ∀ {o : Ostream}, ∀ q ∈ pieces o chunks, q.1.nupfreq = l.nupfreq := fun q hq => by
    obtain ⟨chunk, hchunk, hq⟩ := List.mem_flatMap.1 hq
    obtain ⟨i, -, rfl⟩ := List.mem_map.1 hq
    exact hchunks chunk hchunk
  refine ⟨fun o ho q hq => ?_, fun ithread o ho => ?_, fun istream hi c hc => sent_once hw hi hc⟩
  · rw [hw.streams] at ho
    obtain ⟨ithread, -, rfl⟩ := List.mem_map.1 ho
    rw [inside_iff hw hu hio (hnupfreq q hq), ht, hb]
  · have hrate := hgbps o (List.mem_of_getElem? ho)
    obtain ⟨-, rfl⟩ := hw.of_getElem?_streams ho
    have hdecode : ∀ q ∈ pieces (l.makeOstream ithread) chunks, ∃ x,
        io.decodePiece (l.makeOstream ithread) q = .ok x ∧ io.IsPiece (l.makeOstream ithread) q x := fun q hq => by
      have hinside := (inside_iff hw hu hio (hnupfreq q hq) ithread).2 (by rw [ht, hb])
      obtain ⟨x, hx⟩ := decodePiece_iff.2 hinside
      exact ⟨x, hx, isPiece_of_one hw hu hio ht hb (hnupfreq q hq) hx⟩
    obtain ⟨sent, hsent, hpieces⟩ := mapM_forall₂ hdecode
    refine ⟨sent, ?_, hpieces⟩
    rw [getElem?_replay hread ho, FrbIo.sendChunks, if_pos hrate, hsent]
    rfl

theorem rate_of_replays {l : L0Params} {io : FrbIo} {read : List Char → Option AssembledChunk}
    {files : List (List Char)} {chunks : List AssembledChunk} (hread : files.mapM read = some chunks)
    (h : Replays io read l files chunks) : ∀ o ∈ l.streams, 0 < io.targetGbps o := by
  intro o ho
  obtain ⟨ithread, hi⟩ := List.mem_iff_getElem?.1 ho
  obtain ⟨sent, hsent, -⟩ := h.sends ithread o hi
  rw [getElem?_replay hread hi] at hsent
  have hsent := Option.some.inj hsent
  unfold FrbIo.sendChunks at hsent
  split at hsent
  · rename_i hgbps
    exact hgbps
  · cases hsent

/-- Of the chunk with different rows there is a faithful replay only for one beam and one thread. -/
theorem one_of_replays {l : L0Params} (hw : l.Wired) (hu : 0 < l.nupfreq) {io : FrbIo} (hio : io.Documented)
    {read : List Char → Option AssembledChunk} {files : List (List Char)}
    (hread : files.mapM read = some [rampChunk l.nupfreq])
    (h : Replays io read l files [rampChunk l.nupfreq]) :
    l.nthreadsPerStream = 1 ∧ l.nbeamsPerStream = 1 := by
  have hnthreads : 0 < l.nthreads := by
    have hn := hw.nstreams_pos
    rw [hw.nthreads_eq]
    exact Nat.mul_pos (by omega) hw.toNat_nthreadsPerStream_pos
  have ho := hw.getElem?_streams hnthreads
  obtain ⟨sent, hsent, hpieces⟩ := h.sends 0 _ ho
  rw [getElem?_replay hread ho] at hsent
  have hsent := Option.some.inj hsent
  unfold FrbIo.sendChunks at hsent
  split at hsent
  · rw [pieces_rampChunk] at hsent hpieces
    obtain ⟨x, _, hpiece, hnil, rfl⟩ := List.forall₂_cons_left_iff.1 hpieces
    obtain rfl := List.forall₂_nil_left_iff.1 hnil
    have hx : io.decodePiece (l.makeOstream 0) (rampChunk l.nupfreq, 0) = .ok x := by
      obtain ⟨x', _, hdecode, -, hx'⟩ := List.forall₂_cons_left_iff.1 (forall₂_of_mapM hsent)
      rw [(List.cons.inj hx').1]
      exact hdecode
    have hle : l.nthreadsPerStream ≤ l.nbeamsPerStream :=
      (inside_iff hw hu hio (q := (rampChunk l.nupfreq, 0)) rfl 0).1 (decodePiece_iff.1 ⟨x, hx⟩)
    have hb : ¬ 1 < l.nbeamsPerStream := fun hb => not_isPiece_rampChunk hw hu hio hb hx hpiece
    have htpos := hw.nthreadsPerStream_pos
    have hbpos := hw.nbeamsPerStream_pos
    exact ⟨by omega, by omega⟩
  · cases hsent

def rowWrites (data : Nat → Nat → ℚ) (nrows t0 nt stride : Nat) : List (Nat × ℚ) :=
  (List.range nrows).flatMap (fun row => (List.range nt).map (fun t => (row * stride + t, data row (t0 + t))))

theorem rows_rowWrites (data : Nat → Nat → ℚ) (nrows t0 nt stride : Nat) :
    Rows (rowWrites data nrows t0 nt stride) data nrows t0 nt stride := by
  intro k x
  unfold rowWrites
  simp only [List.mem_flatMap, List.mem_map, List.mem_range, Prod.mk.injEq]
  constructor
  · rintro ⟨row, hrow, t, ht, rfl, rfl⟩
    exact ⟨row, hrow, t, ht, rfl, rfl⟩
  · rintro ⟨row, hrow, t, ht, rfl, rfl⟩
    exact ⟨row, hrow, t, ht, rfl, rfl⟩

/-- A target rate of 0 stands for the rate of the telescope, here of 1. -/
def plainIo : FrbIo where
  targetGbps         := fun o => if o.targetGbps = 0 then 1 else o.targetGbps
  eltsPerChunk       := fun o => o.beamIds.length * (o.coarseFreqIds.length * o.nupfreq.toNat) * o.ntPerChunk.toNat
  fpgaCountsPerChunk := fun o => o.fpgaCountsPerSample * o.ntPerChunk
  decodeSubset       := fun chunk t0 nt istride wstride =>
    let nrows := (nfreqCoarseTot * chunk.nupfreq).toNat
    (rowWrites chunk.intensity nrows t0 nt istride, rowWrites chunk.weights nrows t0 nt wstride)
  place              := fun o stride ib jc iup t =>
    ((ib * o.coarseFreqIds.length + jc) * o.nupfreq.toNat + iup) * stride + t

theorem plainIo_documented : plainIo.Documented where
  eltsPerChunk := fun _ => rfl
  intensity    := fun _ _ _ _ _ => rows_rowWrites _ _ _ _ _
  weights      := fun _ _ _ _ _ => rows_rowWrites _ _ _ _ _
  place        := fun _ _ _ _ _ _ => rfl

def oneEach : Paramfile where
  filename := "l0.yaml".toList
  nodes    := twoPorts ++ [("nthreads", scalar 2)]

def oneEachExample : L0Params × List String := ((l0Params l0Env 0 oneEach).run []).toOption.get (by decide +kernel)

theorem oneEachExample_ok : (l0Params l0Env 0 oneEach).run [] = .ok oneEachExample :=
  toOption_eq_some.1 (Option.some_get _).symm

end L0
end FrbL1
