import FrbL1.Fallible
import FrbL1.L1Config
import FrbL1.Slices
import Mathlib.Tactic.Linarith
import Mathlib.Tactic.Ring
/-!
# L1Server — the L1 server and its input streams

The server's constructor, which chooses one of three modes, and `make_input_streams`.  Whether ch_frb_io makes a stream
is a parameter (`Env.makeStream`).  Which cores the threads are pinned to is left out.
-/
namespace FrbL1
namespace Config

open Conc (Prog)
open Fallible (mapM_check)
open Posix (Filename Tree)
open Slices (slice flatMap_slice_eq)

/-- What `stream_to_files` sets. -/
structure Streaming where
  pattern  : Filename
  beamIds  : List Int
  priority : Int
  needRfi  : Bool
  deriving Inhabited

structure InputStream where
  iniParams : IniParams
  streaming : Streaming
  deriving Inhabited

/-- `xdiv`, with its assertion. -/
def xdiv (num den : Int) : Except Stop Int :=
  if num > 0 ∧ den > 0 ∧ num.tmod den = 0 then .ok (num.tdiv den) else .error .aborted

theorem xdiv_eq_ok {num den q : Int} (h : xdiv num den = .ok q) : num = den * q ∧ 0 < den ∧ 0 < q := by
  unfold xdiv at h
  split at h
  · rename_i hpos
    obtain ⟨hnum, hden, hmod⟩ := hpos
    obtain rfl := Except.ok.inj h
    have hmul : den * num.tdiv den = num := Int.mul_tdiv_cancel' (Int.dvd_of_tmod_eq_zero hmod)
    refine ⟨hmul.symm, hden, ?_⟩
    by_contra hq
    have hle := Int.mul_nonpos_of_nonneg_of_nonpos hden.le (not_lt.1 hq)
    omega
  · cases h

/-- `l1_server::l1_server`: the number of cpus, for a machine with so many cores. -/
def initServer (numCores : Int) (c : L1Config) : Except Stop Int := do
  if c.nbeams ≤ 4 then
    -- _init_subscale
    if c.nfreq > 4096 then
      c.haveWarnings
    return 1
  else if c.nbeams = 16 ∧ numCores = 20 then
    -- _init_20cores_16beams
    if c.nstreams ≠ 4 then
      throw (.threw ("ch-frb-l1: in the \"production\" 16-beam case, we currently require 4 streams (this could be " ++
        "generalized pretty easily)").toList)
    return 2
  else if c.nbeams = 8 ∧ numCores = 20 then
    -- _init_20cores_8beams
    if c.nstreams ≠ 2 then
      throw (.threw ("ch-frb-l1: in the \"production\" 8-beam case, we currently require 2 streams (this could be " ++
        "generalized pretty easily)").toList)
    return 2
  else
    throw (.exit 1)

/-- The beams of `config.beam_ids` from `istream * nbeams_per_stream` on. -/
def streamSlice (c : L1Config) (nbeamsPerStream : Int) (istream : Nat) : List Int :=
  slice c.beamIds nbeamsPerStream.toNat istream

def makeInputStream (c : L1Config) (nstreamsPerCpu nbeamsPerStream nupfreq : Int) (istream : Nat) : InputStream :=
  let beamIds := streamSlice c nbeamsPerStream istream
  { iniParams := {
      ipaddr := c.ipaddr.getD istream [], udpPort := c.port.getD istream 0, beamIds, nupfreq, nrfifreq := c.nrfifreq,
      ntPerPacket := c.ntPerPacket, fpgaCountsPerSample := c.fpgaCountsPerSample, ntAlign := c.ntAlign,
      streamId := istream + 1, unassembledRingbufCapacity := c.unassembledRingbufCapacity,
      maxUnassembledPacketsPerList := c.unassembledNpacketsPerList,
      maxUnassembledNbytesPerList := c.unassembledNbytesPerList,
      assembledRingbufCapacity := c.assembledRingbufNchunks,
      telescopingRingbufCapacity := c.telescopingRingbufNchunks,
      memoryPool := (istream : Int).tdiv nstreamsPerCpu, acceptEndOfStreamPackets := !c.ignoreEndOfStream,
      throwExceptionOnBufferDrop := !c.tflag }
    streaming := {
      pattern := c.streamFilenamePattern, beamIds := c.streamBeamIds.filter (fun b => beamIds.contains b),
      priority := 0, needRfi := decide (c.nrfifreq > 0) } }

def makeInputStreams (env : Env) (ncpus : Int) (c : L1Config) : Except Stop (List InputStream) := do
  let nstreamsPerCpu ← xdiv c.nstreams ncpus
  let nbeamsPerStream ← xdiv c.nbeams c.nstreams
  let nupfreq ← xdiv c.nfreq nfreqCoarseTot
  (List.range c.nstreams.toNat).mapM (fun istream => do
    let stream := makeInputStream c nstreamsPerCpu nbeamsPerStream nupfreq istream
    env.makeStream stream.iniParams
    return stream)

theorem makeInputStreams_eq_ok {env : Env} {ncpus : Int} {c : L1Config} {ss : List InputStream} :
    makeInputStreams env ncpus c = .ok ss ↔ ∃ nstreamsPerCpu nbeamsPerStream nupfreq,
      xdiv c.nstreams ncpus = .ok nstreamsPerCpu ∧ xdiv c.nbeams c.nstreams = .ok nbeamsPerStream ∧
      xdiv c.nfreq nfreqCoarseTot = .ok nupfreq ∧ (∀ istream ∈ List.range c.nstreams.toNat,
        env.makeStream (makeInputStream c nstreamsPerCpu nbeamsPerStream nupfreq istream).iniParams = .ok ()) ∧
      ss = (List.range c.nstreams.toNat).map (makeInputStream c nstreamsPerCpu nbeamsPerStream nupfreq) := by
  unfold makeInputStreams
  constructor
  · intro h
    obtain ⟨a, ha, h⟩ := bind_eq_ok h
    obtain ⟨b, hb, h⟩ := bind_eq_ok h
    obtain ⟨d, hd, h⟩ := bind_eq_ok h
    exact ⟨a, b, d, ha, hb, hd, mapM_check.1 h⟩
  · rintro ⟨a, b, d, ha, hb, hd, h⟩
    rw [ha, hb, hd]
    exact mapM_check.2 h

structure L1Server where
  config       : L1Config
  ncpus        : Int
  inputStreams : List InputStream

/-- The start of `main`, as far as the input streams. -/
def l1Server (env : Env) (numCores : Int) (opts : Options) (p : Paramfile) (t : Tree) : Except Stop L1Server × Tree :=
  let (c, t) := l1Config env opts p t
  (do
    let config ← c
    let ncpus ← initServer numCores config
    let inputStreams ← makeInputStreams env ncpus config
    return { config, ncpus, inputStreams }, t)

theorem l1Config_eq_ok {env : Env} {opts : Options} {p : Paramfile} {t : Tree} {c : L1Config} :
    (l1Config env opts p t).1 = .ok c ↔ ∃ c₁ pattern t', (readConfig env opts p).run' [] = .ok c₁ ∧
      Prog.solo Posix.perform (makeAcqdirs c₁) t = (.ok pattern, t') ∧ c = c₁.setPattern pattern := by
  unfold l1Config
  constructor
  · intro h
    split at h
    · cases h
    · rename_i c₁ hc₁
      split at h
      · rename_i pat t' hsolo
        exact ⟨c₁, pat, t', hc₁, hsolo, (Except.ok.inj h).symm⟩
      · cases h
  · rintro ⟨c₁, pattern, t', hrun, hsolo, rfl⟩
    simp only [hrun, hsolo]

theorem l1Server_eq_ok {env : Env} {numCores : Int} {opts : Options} {p : Paramfile} {t : Tree} {s : L1Server} :
    (l1Server env numCores opts p t).1 = .ok s ↔ (l1Config env opts p t).1 = .ok s.config ∧
      initServer numCores s.config = .ok s.ncpus ∧ makeInputStreams env s.ncpus s.config = .ok s.inputStreams := by
  unfold l1Server
  constructor
  · intro h
    obtain ⟨c, hc, h⟩ := bind_eq_ok h
    obtain ⟨ncpus, hn, h⟩ := bind_eq_ok h
    obtain ⟨ss, hss, h⟩ := bind_eq_ok h
    cases h
    exact ⟨hc, hn, hss⟩
  · rintro ⟨hc, hn, hss⟩
    show ((l1Config env opts p t).1 >>= _) = _
    rw [hc, ok_bind, hn, ok_bind, hss]
    rfl

/-! ## Streams and beams of an accepted configuration -/

/-- The streams and the beams: what is not touched any more once the beams are read. -/
structure Layout where
  nbeams   : Int
  nstreams : Int
  ipaddr   : List (List Char)
  port     : List Int
  beamIds  : List Int

def L1Config.layout (c : L1Config) : Layout := ⟨c.nbeams, c.nstreams, c.ipaddr, c.port, c.beamIds⟩

@[simp] theorem layout_setStream (c : L1Config) (devname acqname : List Char) (beams : List Int) :
    (c.setStream devname acqname beams).layout = c.layout := rfl

theorem deriveL1b_eq (bonsai : Option BonsaiConfig) (c : L1Config) :
    ∃ l1bPipeCapacity, deriveL1b bonsai c = { c with l1bPipeCapacity } := by
  cases bonsai with
  | none => exact ⟨c.l1bPipeCapacity, rfl⟩
  | some bonsai =>
    unfold deriveL1b
    simp only
    split
    · exact ⟨_, rfl⟩
    · exact ⟨c.l1bPipeCapacity, rfl⟩

theorem layout_derive (env : Env) (bonsai : Option BonsaiConfig) (c : L1Config) :
    (deriveL1b bonsai (deriveParams env c)).layout = c.layout := by
  obtain ⟨l1bPipeCapacity, h⟩ := deriveL1b_eq bonsai (deriveParams env c)
  rw [h]
  rfl

theorem streamBeamIds_derive (env : Env) (bonsai : Option BonsaiConfig) (c : L1Config) :
    (deriveL1b bonsai (deriveParams env c)).streamBeamIds = c.streamBeamIds := by
  obtain ⟨l1bPipeCapacity, h⟩ := deriveL1b_eq bonsai (deriveParams env c)
  rw [h]
  rfl

theorem readStream_ok {opts : Options} {p : Paramfile} {c c' : L1Config} {R R' : List String}
    (h : (readStream opts p c).run R = .ok (c', R')) :
    ∃ devname acqname beams, c' = c.setStream devname acqname beams := by
  unfold readStream at h
  split at h
  · split at h <;> cases h <;> exact ⟨_, _, _, rfl⟩
  · obtain ⟨_, _, -, h⟩ := run_bind_eq_ok h
    obtain ⟨_, _, -, h⟩ := run_bind_eq_ok h
    obtain ⟨_, _, -, h⟩ := run_bind_eq_ok h
    cases h
    exact ⟨_, _, _, rfl⟩

theorem finishConfig_ok {env : Env} {bonsai : Option BonsaiConfig} {p : Paramfile} {R : List String} {c c₁ : L1Config}
    (h : finishConfig env bonsai p R c = .ok c₁) :
    c₁ = deriveL1b bonsai (deriveParams env c) ∧ ∀ b ∈ c.streamBeamIds, b ∈ c.beamIds := by
  unfold finishConfig at h
  obtain ⟨_, hchecks, h⟩ := bind_eq_ok h
  have hsub : ∀ b ∈ c.streamBeamIds, b ∈ c.beamIds := by
    have hany := runChecks_ok hchecks _ (.head _)
    simp only [List.any_eq_false, Bool.not_eq_true', Bool.not_eq_false, List.contains_iff_mem] at hany
    exact hany
  simp only at h
  split at h
  · obtain ⟨_, -, h⟩ := bind_eq_ok h
    exact ⟨(Except.ok.inj h).symm, hsub⟩
  · exact ⟨(Except.ok.inj h).symm, hsub⟩

theorem readConfig_ok {env : Env} {opts : Options} {p : Paramfile} {c₁ : L1Config}
    (h : (readConfig env opts p).run' [] = .ok c₁) : ∃ c₀ bonsai R' devname acqname beams,
      (readCommon env opts p).run [] = .ok ((c₀, bonsai), R') ∧
      c₁ = deriveL1b bonsai (deriveParams env (c₀.setStream devname acqname beams)) ∧
      ∀ b ∈ beams, b ∈ c₀.beamIds := by
  rw [StateT.run'_eq] at h
  obtain ⟨y, hy, hrun⟩ : ∃ y, (readConfig env opts p).run [] = .ok y ∧ y.1 = c₁ := by
    cases hx : (readConfig env opts p).run [] with
    | error e => rw [hx] at h; cases h
    | ok y => rw [hx] at h; exact ⟨y, rfl, Except.ok.inj h⟩
  obtain ⟨⟨c₀, bonsai⟩, R₁, hcommon, hy⟩ := run_bind_eq_ok hy
  obtain ⟨c', R₂, hstream, hy⟩ := run_bind_eq_ok hy
  obtain ⟨R₃, R₄, hget, hy⟩ := run_bind_eq_ok hy
  obtain ⟨devname, acqname, beams, rfl⟩ := readStream_ok hstream
  obtain ⟨hc₁, hsub⟩ := finishConfig_ok (run_lift_eq_ok hy).1
  exact ⟨c₀, bonsai, R₁, devname, acqname, beams, hcommon, hrun.symm.trans hc₁, hsub⟩

theorem l1Config_sane {env : Env} {opts : Options} {p : Paramfile} {t : Tree} {c : L1Config}
    (h : (l1Config env opts p t).1 = .ok c) : ∃ c₀ bonsai R', (readCommon env opts p).run [] = .ok ((c₀, bonsai), R') ∧
      c.layout = c₀.layout ∧ ∀ b ∈ c.streamBeamIds, b ∈ c.beamIds := by
  obtain ⟨c₁, pattern, t', hrun, -, rfl⟩ := l1Config_eq_ok.1 h
  obtain ⟨c₀, bonsai, R₁, devname, acqname, beams, hcommon, hc₁, hsub⟩ := readConfig_ok hrun
  have hlayout : c₁.layout = c₀.layout := by rw [hc₁, layout_derive, layout_setStream]
  refine ⟨c₀, bonsai, R₁, hcommon, hlayout, ?_⟩
  show ∀ b ∈ c₁.streamBeamIds, b ∈ c₁.beamIds
  have hbeams : c₁.streamBeamIds = beams := by rw [hc₁, streamBeamIds_derive]; rfl
  have hids : c₁.beamIds = c₀.beamIds := congrArg Layout.beamIds hlayout
  rw [hbeams, hids]
  exact hsub

def L1Config.nbeamsPerStream (c : L1Config) : Nat := (c.nbeams.tdiv c.nstreams).toNat

structure L1Server.Wired (s : L1Server) : Prop where
  nbeams        : s.config.nbeams = s.config.nstreams * s.config.nbeamsPerStream
  nstreams_pos  : 0 < s.config.nstreams
  nbeams_pos    : 0 < s.config.nbeams
  ipaddr_length : (s.config.ipaddr.length : Int) = s.config.nstreams
  port_length   : (s.config.port.length : Int) = s.config.nstreams
  beamIds_length : (s.config.beamIds.length : Int) = s.config.nbeams
  streamBeamIds : ∀ b ∈ s.config.streamBeamIds, b ∈ s.config.beamIds
  inputStreams  : ∃ nstreamsPerCpu nupfreq, s.inputStreams = (List.range s.config.nstreams.toNat).map
    (makeInputStream s.config nstreamsPerCpu s.config.nbeamsPerStream nupfreq)

theorem l1Server_wired {env : Env} {numCores : Int} {opts : Options} {p : Paramfile} {t : Tree} {s : L1Server}
    (h : (l1Server env numCores opts p t).1 = .ok s) : s.Wired := by
  obtain ⟨hc, -, hss⟩ := l1Server_eq_ok.1 h
  obtain ⟨c₀, bonsai, R', hcommon, hlayout, hsub⟩ := l1Config_sane hc
  have hsane := readCommon_sane hcommon
  obtain ⟨hnbeams, hnstreams, hipaddr, hport, hbeamIds⟩ := Layout.mk.inj hlayout
  obtain ⟨nstreamsPerCpu, nbeamsPerStream, nupfreq, -, hnbps, -, -, hss⟩ := makeInputStreams_eq_ok.1 hss
  have hpos : 0 < s.config.nstreams := hnstreams ▸ hsane.nstreams_pos
  have hbpos : 0 < s.config.nbeams := hnbeams ▸ hsane.nbeams_pos
  have hnn : 0 ≤ s.config.nbeams.tdiv s.config.nstreams := Int.tdiv_nonneg hbpos.le hpos.le
  have hnbps' : nbeamsPerStream = s.config.nbeamsPerStream := by
    unfold xdiv at hnbps
    split at hnbps
    · unfold L1Config.nbeamsPerStream
      rw [Int.toNat_of_nonneg hnn]
      exact (Except.ok.inj hnbps).symm
    · cases hnbps
  refine ⟨?_, hpos, hbpos, ?_, ?_, ?_, hsub, nstreamsPerCpu, nupfreq, ?_⟩
  · unfold L1Config.nbeamsPerStream
    rw [Int.toNat_of_nonneg hnn, Int.mul_tdiv_cancel' (hnbeams ▸ hnstreams ▸ hsane.nstreams_dvd)]
  · rw [hipaddr, hnstreams]
    exact hsane.ipaddr_length
  · rw [hport, hnstreams]
    exact hsane.port_length
  · rw [hbeamIds, hnbeams]
    exact hsane.beamIds_length
  · rw [← hnbps']
    exact hss

namespace L1Server.Wired

variable {server : L1Server} (hw : server.Wired)
include hw

theorem length_beamIds :
    server.config.beamIds.length = server.config.nstreams.toNat * server.config.nbeamsPerStream := by
  have hlen := hw.beamIds_length
  have hpos := hw.nstreams_pos
  rw [hw.nbeams] at hlen
  zify
  rw [hlen, Int.toNat_of_nonneg hpos.le]

theorem nbeamsPerStream_pos : 0 < server.config.nbeamsPerStream := by
  have hn := hw.nbeams
  have hpos := hw.nbeams_pos
  refine Nat.pos_of_ne_zero (fun h0 => ?_)
  rw [h0] at hn
  simp only [Nat.cast_zero, mul_zero] at hn
  omega

theorem getElem?_inputStreams {i : Nat} (hi : i < server.config.nstreams.toNat) :
    ∃ x, server.inputStreams[i]? = some x ∧
      x.iniParams.ipaddr = server.config.ipaddr.getD i [] ∧ x.iniParams.udpPort = server.config.port.getD i 0 ∧
      x.iniParams.beamIds = slice server.config.beamIds server.config.nbeamsPerStream i := by
  obtain ⟨nstreamsPerCpu, nupfreq, hss⟩ := hw.inputStreams
  refine ⟨makeInputStream server.config nstreamsPerCpu server.config.nbeamsPerStream nupfreq i, ?_, rfl, rfl, ?_⟩
  · rw [hss, List.getElem?_map, List.getElem?_range hi]
    rfl
  · simp [makeInputStream, streamSlice]

theorem flatMap_beamIds : server.inputStreams.flatMap (fun x => x.iniParams.beamIds) = server.config.beamIds := by
  obtain ⟨nstreamsPerCpu, nupfreq, hss⟩ := hw.inputStreams
  have hslice : ∀ i, (makeInputStream server.config nstreamsPerCpu server.config.nbeamsPerStream nupfreq
      i).iniParams.beamIds = slice server.config.beamIds server.config.nbeamsPerStream i := fun i => by
    simp [makeInputStream, streamSlice]
  rw [hss, List.flatMap_map]
  simp only [hslice]
  exact flatMap_slice_eq hw.length_beamIds

theorem mem_streaming {x : InputStream} (hx : x ∈ server.inputStreams) (b : Int) :
    b ∈ x.streaming.beamIds ↔ b ∈ server.config.streamBeamIds ∧ b ∈ x.iniParams.beamIds := by
  obtain ⟨nstreamsPerCpu, nupfreq, hss⟩ := hw.inputStreams
  rw [hss] at hx
  obtain ⟨i, -, rfl⟩ := List.mem_map.1 hx
  simp [makeInputStream]

theorem exists_streaming {b : Int} (hb : b ∈ server.config.streamBeamIds) :
    ∃ x ∈ server.inputStreams, b ∈ x.streaming.beamIds := by
  have hmem := hw.streamBeamIds b hb
  rw [← hw.flatMap_beamIds] at hmem
  obtain ⟨x, hx, hbx⟩ := List.mem_flatMap.1 hmem
  exact ⟨x, hx, (hw.mem_streaming hx b).2 ⟨hb, hbx⟩⟩

end L1Server.Wired

/-! ## Small nodes -/

def scalar (n : Int) : Node where
  asInt      := if IsInt n then some n else none
  asBool     := none
  asDouble   := some n
  asString   := some (FileUtils.toString n)
  asInts     := none
  asStrings  := none
  int_range  := fun _ hm => by
    split at hm
    · rename_i h
      exact Option.some.inj hm ▸ h
    · cases hm
  ints_range := fun _ hm => nomatch hm

def text (s : List Char) : Node where
  asInt      := none
  asBool     := none
  asDouble   := none
  asString   := some s
  asInts     := none
  asStrings  := none
  int_range  := fun _ hm => nomatch hm
  ints_range := fun _ hm => nomatch hm

def texts (ss : List (List Char)) : Node where
  asInt      := none
  asBool     := none
  asDouble   := none
  asString   := none
  asInts     := none
  asStrings  := some ss
  int_range  := fun _ hm => nomatch hm
  ints_range := fun _ hm => nomatch hm

def vector (ns : List Int) : Node where
  asInt      := none
  asBool     := none
  asDouble   := none
  asString   := none
  asInts     := if ns.all (fun n => decide (IsInt n)) then some ns else none
  asStrings  := none
  int_range  := fun _ hm => nomatch hm
  ints_range := fun _ hm n hn => by
    split at hm
    · rename_i h
      obtain rfl := Option.some.inj hm
      exact of_decide_eq_true (List.all_eq_true.1 h n hn)
    · cases hm

def oneStream (nbeams : Int) : Paramfile where
  filename := "l1.yaml".toList
  nodes    := [("nbeams", scalar nbeams), ("nfreq", scalar 2048),
    ("nt_per_packet", scalar 16), ("nt_align", scalar 0), ("nrfifreq", scalar 1024),
    ("ipaddr", text "127.0.0.1".toList), ("port", scalar 6677),
    ("rpc_address", text "tcp://127.0.0.1:5555".toList), ("prometheus_address", text "127.0.0.1:8888".toList),
    ("frame0_url", text []), ("output_devices", text "/local".toList),
    ("l1b_executable_filename", text [])]

def oneBeam : Paramfile := oneStream 1

def toyOptions : Options where
  help   := false
  force  := false
  ignore := false
  crash  := false
  toy    := true
  acq    := none
  nfs    := false
  beams  := []
  args   := ["l1.yaml".toList]

/-- The same without `-t`. -/
def fullOptions : Options := { toyOptions with
  toy := false, args := ["l1.yaml".toList, "rfi.json".toList, "bonsai.hdf5".toList, "l1b.cfg".toList] }

/-- Where ch_frb_io makes every stream, also one with a beam twice. -/
def plainEnv : Env where
  rfiChain       := fun _ => .ok ()
  bonsaiConfig   := fun _ => .ok ⟨2048, 1024, [], true, 0⟩
  interfaces     := .ok []
  inetAton       := fun _ => true
  packetSize     := fun nb n nu nt => 24 + 2 * nb + 2 * n + 8 * nb * n + nb * n * nu * nt
  memorySlabSize := fun nupfreq _ nrfifreq => 1024 * (1024 * nupfreq + nrfifreq)
  makeStream     := fun _ => .ok ()

theorem plainEnv_packetSize_le {nb n : Int} (nu nt : Int) (hnb : 0 < nb) (hn : 0 < n) :
    plainEnv.packetSize nb n nu nt ≤ n * plainEnv.packetSize nb 1 nu nt := by
  have hdata : nb * n * nu * nt = n * (nb * 1 * nu * nt) := by ring
  have hpairs : 8 * nb * n = n * (8 * nb * 1) := by ring
  have hbeams : nb * 1 ≤ nb * n := Int.mul_le_mul_of_nonneg_left (by omega) hnb.le
  show 24 + 2 * nb + 2 * n + 8 * nb * n + nb * n * nu * nt ≤ n * (24 + 2 * nb + 2 * 1 + 8 * nb * 1 + nb * 1 * nu * nt)
  rw [hdata, hpairs]
  linarith

def localDisk : Tree where
  entries  := [([], .dir), (["local".toList], .dir), (["acq_data".toList, "local".toList], .dir)]
  fault    := fun _ => none
  noCreate := fun _ => none
  noList   := fun _ => none
  root     := rfl
  closed   := by decide

end Config
end FrbL1
