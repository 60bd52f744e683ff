import FrbL1.YamlParamfile
import Mathlib.Data.Rat.Floor
/-!
# L1Config — the configuration of the L1 server

The constructor of `l1_config`: reading the parameter file, replacing the names of network interfaces, the sanity
checks, the derived parameters and the warnings.  Last it makes the directories of the acquisition, as a program over
system calls.  The 32-bit numbers are integers here, and `double`s are rational numbers.
-/
namespace FrbL1
namespace Config

open Conc (Prog)
open FileUtils
open Posix (Filename Tree)

def nfreqCoarseTot : Int := 1024
def ntPerAssembledChunk : Int := 1024

/-- The command line.  An option that can be given more than once counts as given. -/
structure Options where
  help          : Bool
  force         : Bool
  ignore        : Bool
  crash         : Bool
  toy           : Bool
  acq           : Option (List Char)
  nfs           : Bool
  beams         : List Int
  args          : List Filename

structure BonsaiConfig where
  nfreq            : Int
  ntChunk          : Int
  ntriggersPerChunk : List Int
  transferMatrices : Bool
  serializedSize   : Int

/-- `intensity_network_stream::initializer` -/
structure IniParams where
  ipaddr                       : List Char
  udpPort                      : Int
  beamIds                      : List Int
  nupfreq                      : Int
  nrfifreq                     : Int
  ntPerPacket                  : Int
  fpgaCountsPerSample          : Int
  ntAlign                      : Int
  streamId                     : Int
  unassembledRingbufCapacity   : Int
  maxUnassembledPacketsPerList : Int
  maxUnassembledNbytesPerList  : Int
  assembledRingbufCapacity     : Int
  telescopingRingbufCapacity   : List Int
  memoryPool                   : Int
  acceptEndOfStreamPackets     : Bool
  throwExceptionOnBufferDrop   : Bool
  deriving Inhabited

structure Env where
  rfiChain       : Filename → Except Stop Unit
  bonsaiConfig   : Filename → Except Stop BonsaiConfig
  interfaces     : Except Stop (List (List Char × List Char))
  inetAton       : List Char → Bool
  packetSize     : Int → Int → Int → Int → Int
  memorySlabSize : Int → Int → Int → Int
  makeStream     : IniParams → Except Stop Unit             -- `intensity_network_stream::make`

structure L1Config where
  l1ConfigFilename             : Filename
  tflag                        : Bool
  fflag                        : Bool
  deliberatelyCrash            : Bool
  ignoreEndOfStream            : Bool
  nbeams                       : Int
  nfreq                        : Int
  nstreams                     : Int
  ntPerPacket                  : Int
  fpgaCountsPerSample          : Int
  ntAlign                      : Int
  nrfifreq                     : Int
  slowKernels                  : Bool
  ipaddr                       : List (List Char)
  port                         : List Int
  rpcAddress                   : List (List Char)
  prometheusAddress            : List (List Char)
  loggerAddress                : List Char
  frame0Url                    : List Char
  frame0Timeout                : Int
  rfiMaskMeasHistory           : Int
  beamIds                      : List Int
  unassembledRingbufNsamples   : Int
  assembledRingbufNsamples     : Int
  telescopingRingbufNsamples   : List Int
  writeStagingAreaGb           : ℚ
  unassembledRingbufCapacity   : Int
  unassembledNbytesPerList     : Int
  unassembledNpacketsPerList   : Int
  assembledRingbufNchunks      : Int
  telescopingRingbufNchunks    : List Int
  nbytesPerMemorySlab          : Int
  totalMemorySlabs             : Int
  outputDeviceNames            : List (List Char)
  intensityPrescale            : ℚ
  l1bExecutableFilename        : List Char
  l1bSearchPath                : Bool
  l1bBufferNsamples            : Int
  l1bPipeTimeout               : ℚ
  l1bPipeBlocking              : Bool
  l1bPipeCapacity              : Int
  forceAsynchronousDedispersion : Bool
  trackGlobalTriggerMax        : Bool
  streamDevname                : List Char
  streamAcqname                : List Char
  streamBeamIds                : List Int
  streamFilenamePattern        : Filename

/-- `vrange(lo, hi)`, for `lo <= hi`. -/
def vrange (lo hi : Int) : List Int := (List.range (hi - lo).toNat).map (fun i => lo + (i : Nat))

/-! ## The parameters that are read right away -/

/-- The members that are set later have their initial values. -/
def readParams (opts : Options) (p : Paramfile) : Reading L1Config := do
  let nbeams ← p.readScalar int "nbeams"
  let nfreq ← p.readScalar int "nfreq"
  let ntPerPacket ← p.readScalar int "nt_per_packet"
  let fpgaCountsPerSample ← p.readScalarD int "fpga_counts_per_sample" 384
  let ntAlign ← p.readScalar int "nt_align"
  let nrfifreq ← p.readScalar int "nrfifreq"
  let ipaddr ← p.readVector string "ipaddr"
  let port ← p.readVector int "port"
  let rpcAddress ← p.readVector string "rpc_address"
  let prometheusAddress ← p.readVector string "prometheus_address"
  let loggerAddress ← p.readScalarD string "logger_address" []
  let frame0Url ← p.readScalar string "frame0_url"
  let frame0Timeout ← p.readScalarD int "frame0_timeout_ms" 3000
  let rfiMaskMeasHistory ← p.readScalarD int "rfi_mask_meas_history" 300
  let slowKernels ← p.readScalarD bool "slow_kernels" false
  let unassembledRingbufNsamples ← p.readScalarD int "unassembled_ringbuf_nsamples" 4096
  let assembledRingbufNsamples ← p.readScalarD int "assembled_ringbuf_nsamples" 8192
  let telescopingRingbufNsamples ← p.readVectorD int "telescoping_ringbuf_nsamples" []
  let writeStagingAreaGb ← p.readScalarD double "write_staging_area_gb" 0
  let outputDeviceNames ← p.readVector string "output_devices"
  let intensityPrescale ← p.readScalarD float "intensity_prescale" 1
  let l1bExecutableFilename ←
    if opts.toy then p.readScalarD string "l1b_executable_filename" [] else p.readScalar string "l1b_executable_filename"
  let l1bSearchPath ← p.readScalarD bool "l1b_search_path" false
  let l1bBufferNsamples ← p.readScalarD int "l1b_buffer_nsamples" 0
  let l1bPipeTimeout ← p.readScalarD double "l1b_pipe_timeout" 0
  let l1bPipeBlocking ← p.readScalarD bool "l1b_pipe_blocking" false
  let forceAsynchronousDedispersion ← p.readScalarD bool "force_asynchronous_dedispersion" false
  let trackGlobalTriggerMax ← p.readScalarD bool "track_global_trigger_max" false
  return {
    l1ConfigFilename := p.filename, tflag := opts.toy, fflag := opts.force, deliberatelyCrash := opts.crash,
    ignoreEndOfStream := opts.ignore, nbeams, nfreq, nstreams := 0, ntPerPacket, fpgaCountsPerSample, ntAlign, nrfifreq,
    slowKernels, ipaddr, port, rpcAddress, prometheusAddress, loggerAddress, frame0Url, frame0Timeout,
    rfiMaskMeasHistory, beamIds := [], unassembledRingbufNsamples, assembledRingbufNsamples,
    telescopingRingbufNsamples, writeStagingAreaGb, unassembledRingbufCapacity := 0, unassembledNbytesPerList := 0,
    unassembledNpacketsPerList := 0, assembledRingbufNchunks := 0, telescopingRingbufNchunks := [],
    nbytesPerMemorySlab := 0, totalMemorySlabs := 0, outputDeviceNames, intensityPrescale, l1bExecutableFilename,
    l1bSearchPath, l1bBufferNsamples, l1bPipeTimeout, l1bPipeBlocking, l1bPipeCapacity := 0,
    forceAsynchronousDedispersion, trackGlobalTriggerMax, streamDevname := [], streamAcqname := [], streamBeamIds := [],
    streamFilenamePattern := [] }

theorem readParams_ok {opts : Options} {p : Paramfile} {R : List String} {x : L1Config × List String}
    (h : (readParams opts p).run R = .ok x) : p.HasScalar int "nbeams" x.1.nbeams ∧
      p.HasVector string "ipaddr" x.1.ipaddr ∧ p.HasVector int "port" x.1.port ∧
      IsInt x.1.unassembledRingbufNsamples := by
  unfold readParams at h
  obtain ⟨_, _, hnbeams, h⟩ := run_bind_eq_ok h
  iterate 5 obtain ⟨_, _, -, h⟩ := run_bind_eq_ok h
  obtain ⟨_, _, hipaddr, h⟩ := run_bind_eq_ok h
  obtain ⟨_, _, hport, h⟩ := run_bind_eq_ok h
  iterate 7 obtain ⟨_, _, -, h⟩ := run_bind_eq_ok h
  obtain ⟨nsamples, _, hnsamples, h⟩ := run_bind_eq_ok h
  have hint : IsInt nsamples := by
    rcases Paramfile.readScalarD_ok hnsamples with hdefault | hscalar
    · obtain rfl : nsamples = 4096 := hdefault
      decide
    · exact hscalar.isInt
  iterate 5 obtain ⟨_, _, -, h⟩ := run_bind_eq_ok h
  simp only at h
  split at h
  all_goals
    iterate 7 obtain ⟨_, _, -, h⟩ := run_bind_eq_ok h
    cases h
    exact ⟨Paramfile.readScalar_ok hnbeams, Paramfile.readVector_ok hipaddr, Paramfile.readVector_ok hport, hint⟩

/-! ## Network interfaces -/

def mapIpaddr (env : Env) (interfaces : List (List Char × List Char)) (addr : List Char) : Except Stop (List Char) :=
  if env.inetAton addr then .ok addr
  else match interfaces.lookup addr with
    | some ip => .ok ip
    | none    => .error (.threw ("Config file ipaddr entry \"".toList ++ addr ++
        "\" was not dotted IP address and was not one of the known network interfaces".toList))

/-- `substr(pos, n - pos)`, where the difference is a `size_t`. -/
def substr (s : List Char) (pos n : Nat) : List Char := if pos ≤ n then (s.drop pos).take (n - pos) else s.drop pos

/-- An entry of `rpc_address`: `tcp://eno2:5555` becomes `tcp://10.7.100.15:5555`. -/
def mapRpcAddress (interfaces : List (List Char × List Char)) (addr : List Char) : List Char :=
  match find "//".toList addr, rfind ':' addr with
  | some (proto, _), some port =>
    match interfaces.lookup (substr addr (proto.length + 2) port) with
    | some ip => addr.take (proto.length + 2) ++ ip ++ addr.drop port
    | none    => addr
  | _,               _         => addr

/-- An entry of `prometheus_address`: `eno2:8888` becomes `10.7.100.15:8888`. -/
def mapPrometheusAddress (interfaces : List (List Char × List Char)) (addr : List Char) : List Char :=
  match find ":".toList addr with
  | some (host, _) =>
    match interfaces.lookup host with
    | some ip => ip ++ addr.drop host.length
    | none    => addr
  | none           => addr

def mapAddresses (env : Env) (c : L1Config) : Except Stop L1Config := do
  let interfaces ← env.interfaces
  let ipaddr ← c.ipaddr.mapM (mapIpaddr env interfaces)
  return { c with
    ipaddr, rpcAddress := c.rpcAddress.map (mapRpcAddress interfaces),
    prometheusAddress := c.prometheusAddress.map (mapPrometheusAddress interfaces) }

/-! ## Sanity checks -/

/-- One address for several ports, or one port for several addresses. -/
def broadcastIpaddr (c : L1Config) : L1Config :=
  if c.ipaddr.length = 1 ∧ c.port.length > 1 then
    { c with ipaddr := List.replicate c.port.length (c.ipaddr.headD []) }
  else if c.ipaddr.length > 1 ∧ c.port.length = 1 then
    { c with port := List.replicate c.ipaddr.length (c.port.headD 0) }
  else c

abbrev Check := Bool × List Char

def runChecks : List Check → Except Stop Unit
  | []               => .ok ()
  | (fails, txt) :: cs => if fails then .error (.threw txt) else runChecks cs

theorem runChecks_ok : ∀ {cs : List Check}, runChecks cs = .ok () → ∀ c ∈ cs, c.1 = false
  | [], _, c, hc => nomatch hc
  | (fails, txt) :: cs, h, c, hc => by
    rw [runChecks] at h
    split at h
    · cases h
    · rename_i hf
      rcases List.mem_cons.1 hc with rfl | hc
      · simpa using hf
      · exact runChecks_ok h c hc

def L1Config.text (c : L1Config) (txt : String) : List Char := c.l1ConfigFilename ++ ": ".toList ++ txt.toList

def sanityChecks (c : L1Config) (bonsaiNfreq : Int) : List Check :=
  [(decide (c.nbeams ≤ 0), c.text "'nbeams' must be >= 1"),
   (decide (c.nrfifreq < 0), c.text ("'nrfifreq' must be positive (or zero), and must match the number of downsampled " ++
      "frequencies in the RFI chain JSON file -- probably 1024.")),
   (!c.tflag && decide (c.nfreq ≠ bonsaiNfreq),
      "ch-frb-l1: 'nfreq' values in l1 config file and bonsai config file must match".toList),
   (decide (c.nfreq ≤ 0), c.text "'nfreq' must be >= 1"),
   (decide (c.nfreq.tmod nfreqCoarseTot ≠ 0), c.text "'nfreq' must be a multiple of 1024"),
   (decide (c.nfreq > 16384), c.text "nfreq > 16384 is currently not allowed"),
   (decide (c.nstreams ≤ 0), c.text "'ip_addr' and 'port' must have length >= 1"),
   (decide (c.ntPerPacket ≤ 0), c.text "'nt_per_packet' must be >= 1"),
   (decide (c.fpgaCountsPerSample ≤ 0), c.text "'fpga_counts_per_sample' must be >= 1"),
   (decide (c.ntAlign < 0 ∨ c.ntAlign.tmod ntPerAssembledChunk ≠ 0), c.text "'nt_align' must be a multiple of 1024"),
   (decide ((c.rpcAddress.length : Int) ≠ c.nstreams),
      c.text "'rpc_address' must be a list whose length is the number of (ip_addr,port) pairs"),
   (decide ((c.prometheusAddress.length : Int) ≠ c.nstreams),
      c.text "'prometheus_address' must be a list whose length is the number of (ip_addr,port) pairs"),
   (!c.slowKernels && decide (c.ntPerPacket ≠ 16),
      c.text "fast kernels (slow_kernels=false) currently require nt_per_packet=16"),
   (!c.slowKernels && decide (c.nfreq.tmod (2 * nfreqCoarseTot) ≠ 0),
      c.text "fast kernels (slow_kernels=false) currently require nfreq divisible by 2048"),
   (decide (c.l1bBufferNsamples < 0), c.text "l1b_buffer_nsamples must be >= 0"),
   (decide (c.l1bPipeTimeout < 0), c.text "l1b_pipe_timeout must be >= 0.0"),
   (decide (c.unassembledRingbufNsamples ≤ 0), c.text "'unassembled_ringbuf_nsamples' must be >= 1"),
   (decide (c.assembledRingbufNsamples ≤ 0), c.text "'assembled_ringbuf_nsamples' must be >= 1"),
   (decide (c.telescopingRingbufNsamples.length > 4),
      c.text "'telescoping_ringbuf_nsamples' must be a list of length <= 4"),
   (decide (c.telescopingRingbufNsamples.length > 0 ∧
        c.telescopingRingbufNsamples.headD 0 < c.assembledRingbufNsamples),
      c.text "if specified, 'telescoping_ringbuf_nsamples[0]' must be >= assembled_ringbuf_nsamples"),
   (decide (c.writeStagingAreaGb < 0), c.text "'write_staging_area_gb' must be >= 0.0"),
   (c.telescopingRingbufNsamples.any (· ≤ 0), c.text "all elements of 'telescoping_ringbuf_nsamples' must be > 0"),
   (decide (c.nbeams.tmod c.nstreams ≠ 0), c.l1ConfigFilename ++ ": nbeams (=".toList ++ FileUtils.toString c.nbeams ++
      ") must be a multiple of nstreams (=".toList ++ FileUtils.toString c.nstreams ++
      ", inferred from number of (ipaddr,port) pairs".toList)]

/-! ## Beams and streaming -/

def L1Config.setStream (c : L1Config) (streamDevname streamAcqname : List Char) (streamBeamIds : List Int) : L1Config :=
  { c with streamDevname, streamAcqname, streamBeamIds }

/-- An acquisition on the command line overrides the one of the file. -/
def readStream (opts : Options) (p : Paramfile) (c : L1Config) : Reading L1Config := do
  match opts.acq with
  | some acqName =>
    if acqName = "none".toList then
      return c.setStream [] [] []
    else
      return c.setStream (if opts.nfs then "nfs".toList else "ssd".toList) acqName opts.beams
  | none =>
    let streamDevname ← p.readScalarD string "stream_devname" "ssd".toList
    let streamAcqname ← p.readScalarD string "stream_acqname" []
    let streamBeamIds ← p.readVectorD int "stream_beam_ids" c.beamIds
    return c.setStream streamDevname streamAcqname streamBeamIds

def beamIdsChecks (c : L1Config) : List Check :=
  [(decide ((c.beamIds.length : Int) ≠ c.nbeams), c.text "'beam_ids' must have length 'nbeams'")]

def streamChecks (c : L1Config) : List Check :=
  [(c.streamBeamIds.any (fun b => !c.beamIds.contains b), c.text ("'stream_beam_ids' must be a subset of 'beam_ids' " ++
      "(which defaults to [0,...,nbeams-1] if unspecified)"))]

/-! ## Derived parameters -/

/-- `(n + nt_c - 1) / nt_c`, and at least 2. -/
def nchunks (nsamples ntC : Int) : Int := max ((nsamples + ntC - 1).tdiv ntC) 2

def liveChunksPerBeam (c : L1Config) : Int :=
  let fudgeFactor := match c.telescopingRingbufNchunks with
    | []     => 4
    | n :: _ => max (4 - n) 0
  2 + c.assembledRingbufNchunks + c.telescopingRingbufNchunks.sum + fudgeFactor

def deriveParams (env : Env) (c : L1Config) : L1Config :=
  let fp := c.ntPerPacket * c.fpgaCountsPerSample
  let np := (40000 : Int).tdiv fp + 1
  let nb := env.packetSize (c.nbeams.tdiv c.nstreams) 1 (c.nfreq.tdiv nfreqCoarseTot) c.ntPerPacket
  let c := { c with
    unassembledRingbufCapacity := c.unassembledRingbufNsamples.tdiv (np * c.ntPerPacket) + 1
    unassembledNbytesPerList := np * nfreqCoarseTot * nb
    unassembledNpacketsPerList := np * nfreqCoarseTot
    assembledRingbufNchunks := nchunks c.assembledRingbufNsamples ntPerAssembledChunk
    telescopingRingbufNchunks :=
      c.telescopingRingbufNsamples.mapIdx (fun i n => nchunks n (2 ^ i * ntPerAssembledChunk))
    nbytesPerMemorySlab := env.memorySlabSize (c.nfreq.tdiv nfreqCoarseTot) c.ntPerPacket c.nrfifreq }
  let temporaryChunksPerStream := max 1 (c.telescopingRingbufNchunks.length : Int)
  let totalStagingChunks := ⌊(2 ^ 30 : ℚ) * c.writeStagingAreaGb / c.nbytesPerMemorySlab⌋
  { c with
    totalMemorySlabs := c.nbeams * liveChunksPerBeam c + c.nstreams * temporaryChunksPerStream + totalStagingChunks }

def deriveL1b (bonsai : Option BonsaiConfig) (c : L1Config) : L1Config :=
  match bonsai with
  | some bonsai =>
    if c.l1bBufferNsamples > 0 then
      let n := (c.l1bBufferNsamples + bonsai.ntChunk - 1).tdiv bonsai.ntChunk
      { c with l1bPipeCapacity := bonsai.serializedSize + 1024 + (bonsai.ntriggersPerChunk.map (n * · * 4)).sum }
    else c
  | none => c

/-! ## Warnings -/

def hasWarnings (bonsai : Option BonsaiConfig) (p : Paramfile) (requestedKeys : List String) (c : L1Config) : Bool :=
  !p.checkForUnusedParams requestedKeys ||
  decide (c.nrfifreq = 0) ||
  decide (c.l1bExecutableFilename.length > 0 ∧ c.l1bBufferNsamples = 0 ∧ c.l1bPipeTimeout ≤ 1 / 10 ^ 6) ||
  (match bonsai with
    | some bonsai => decide (bonsai.nfreq > 4096) && c.slowKernels
    | none        => false)

def L1Config.haveWarnings (c : L1Config) : Except Stop Unit := if c.fflag then .ok () else .error (.exit 1)

/-! ## The constructor -/

/-- The rfi and bonsai configurations, which a toy server does without. -/
def readRfiAndBonsai (env : Env) (opts : Options) : Except Stop (Option BonsaiConfig) :=
  if opts.toy then .ok none
  else do
    env.rfiChain (opts.args.getD 1 [])
    let bonsai ← env.bonsaiConfig (opts.args.getD 2 [])
    if bonsai.transferMatrices then
      return some bonsai
    else
      throw (.threw ((opts.args.getD 2 []) ++ (": transfer matrices not found.  Maybe you accidentally specified a .txt " ++
        "file instead of .hdf5?  See ch_frb_l1/MANUAL.md for more info").toList))

def checkArgs (opts : Options) : Except Stop Unit :=
  if opts.help ∨ ¬ (opts.args.length = 4 ∨ (opts.args.length = 1 ∧ opts.toy)) then .error (.exit 0) else .ok ()

def countStreams (c : L1Config) : Except Stop L1Config :=
  if c.ipaddr.length ≠ c.port.length then
    .error (.threw (c.text "expected 'ip_addr' and 'port' to be lists of equal length"))
  else .ok { c with nstreams := c.ipaddr.length }

def setNstreams (c : L1Config) : Except Stop L1Config := countStreams (broadcastIpaddr c)

/-- The first part of the constructor, up to `beam_ids`; `p` is the file that `args[0]` names. -/
def readCommon (env : Env) (opts : Options) (p : Paramfile) : Reading (L1Config × Option BonsaiConfig) := do
  checkArgs opts
  let bonsai ← readRfiAndBonsai env opts
  let c ← readParams opts p
  let c ← mapAddresses env c
  let c ← setNstreams c
  runChecks (sanityChecks c ((bonsai.map (·.nfreq)).getD 0))
  let beamIds ← p.readVectorD int "beam_ids" (vrange 0 c.nbeams)
  let c := { c with beamIds }
  runChecks (beamIdsChecks c)
  return (c, bonsai)

structure L1Config.Sane (c : L1Config) (bonsaiNfreq : Int) : Prop where
  ipaddr_length : (c.ipaddr.length : Int) = c.nstreams
  port_length   : (c.port.length : Int) = c.nstreams
  checks        : ∀ check ∈ sanityChecks c bonsaiNfreq, check.1 = false
  beamIds_length : (c.beamIds.length : Int) = c.nbeams

theorem broadcastIpaddr_eq (c : L1Config) : ∃ ipaddr port, broadcastIpaddr c = { c with ipaddr, port } := by
  unfold broadcastIpaddr
  split
  · exact ⟨_, c.port, rfl⟩
  · split
    · exact ⟨c.ipaddr, _, rfl⟩
    · exact ⟨c.ipaddr, c.port, rfl⟩

theorem broadcastIpaddr_nbeams (c : L1Config) : (broadcastIpaddr c).nbeams = c.nbeams := by
  obtain ⟨ipaddr, port, h⟩ := broadcastIpaddr_eq c
  rw [h]

theorem setNstreams_ok {c c' : L1Config} (h : setNstreams c = .ok c') :
    (c'.ipaddr.length : Int) = c'.nstreams ∧ (c'.port.length : Int) = c'.nstreams := by
  unfold setNstreams countStreams at h
  split at h
  · cases h
  · rename_i hlen
    cases h
    exact ⟨rfl, congrArg Nat.cast (not_not.1 hlen).symm⟩

theorem readCommon_parts {env : Env} {opts : Options} {p : Paramfile} {R R' : List String} {c : L1Config}
    {bonsai : Option BonsaiConfig} (h : (readCommon env opts p).run R = .ok ((c, bonsai), R')) :
    ∃ c₀ c₁ c₂ beamIds R₀ R₁ R₂ R₃, (readParams opts p).run R₀ = .ok (c₀, R₁) ∧ mapAddresses env c₀ = .ok c₁ ∧
      setNstreams c₁ = .ok c₂ ∧ runChecks (sanityChecks c₂ ((bonsai.map (·.nfreq)).getD 0)) = .ok () ∧
      (p.readVectorD int "beam_ids" (vrange 0 c₂.nbeams)).run R₂ = .ok (beamIds, R₃) ∧
      c = { c₂ with beamIds } ∧ runChecks (beamIdsChecks c) = .ok () := by
  unfold readCommon at h
  obtain ⟨_, _, -, h⟩ := run_bind_eq_ok h
  obtain ⟨bonsai', R₀, -, h⟩ := run_bind_eq_ok h
  obtain ⟨c₀, R₁, hread, h⟩ := run_bind_eq_ok h
  obtain ⟨c₁, _, hmap, h⟩ := run_bind_eq_ok h
  obtain ⟨c₂, _, hset, h⟩ := run_bind_eq_ok h
  obtain ⟨_, R₂, hchecks, h⟩ := run_bind_eq_ok h
  obtain ⟨beamIds, R₃, hbeams, h⟩ := run_bind_eq_ok h
  obtain ⟨_, _, hlength, h⟩ := run_bind_eq_ok h
  cases h
  exact ⟨c₀, c₁, c₂, beamIds, R₀, R₁, R₂, R₃, hread, (run_lift_eq_ok hmap).1, (run_lift_eq_ok hset).1,
    (run_lift_eq_ok hchecks).1, hbeams, rfl, (run_lift_eq_ok hlength).1⟩

theorem readCommon_sane {env : Env} {opts : Options} {p : Paramfile} {R R' : List String} {c : L1Config}
    {bonsai : Option BonsaiConfig} (h : (readCommon env opts p).run R = .ok ((c, bonsai), R')) :
    c.Sane ((bonsai.map (·.nfreq)).getD 0) := by
  obtain ⟨c₀, c₁, c₂, beamIds, _, _, _, _, -, -, hset, hchecks, -, rfl, hlength⟩ := readCommon_parts h
  obtain ⟨hip, hport⟩ := setNstreams_ok hset
  have hlen := of_decide_eq_false (runChecks_ok hlength _ (.head _))
  exact ⟨hip, hport, runChecks_ok hchecks, not_not.1 hlen⟩

namespace L1Config.Sane

variable {c : L1Config} {n : Int} (h : c.Sane n)
include h

theorem check_false (i : Nat) (hi : i < 23) : ((sanityChecks c n).get ⟨i, hi⟩).1 = false :=
  h.checks _ (List.get_mem _ _)

theorem nbeams_pos : 0 < c.nbeams := by
  have hcheck := of_decide_eq_false (h.check_false 0 (by decide))
  omega

theorem nstreams_pos : 0 < c.nstreams := by
  have hcheck := of_decide_eq_false (h.check_false 6 (by decide))
  omega

theorem nstreams_dvd : c.nstreams ∣ c.nbeams := by
  have hcheck := of_decide_eq_false (h.check_false 22 (by decide))
  exact Int.dvd_of_tmod_eq_zero (not_not.1 hcheck)

theorem nfreq_pos : 0 < c.nfreq := by
  have hcheck := of_decide_eq_false (h.check_false 3 (by decide))
  omega

theorem nfreq_dvd : nfreqCoarseTot ∣ c.nfreq := by
  have hcheck := of_decide_eq_false (h.check_false 4 (by decide))
  exact Int.dvd_of_tmod_eq_zero (not_not.1 hcheck)

theorem nfreq_le : c.nfreq ≤ 16384 := by
  have hcheck := of_decide_eq_false (h.check_false 5 (by decide))
  omega

theorem ntPerPacket_pos : 0 < c.ntPerPacket := by
  have hcheck := of_decide_eq_false (h.check_false 7 (by decide))
  omega

theorem fpgaCountsPerSample_pos : 0 < c.fpgaCountsPerSample := by
  have hcheck := of_decide_eq_false (h.check_false 8 (by decide))
  omega

theorem unassembledRingbufNsamples_pos : 0 < c.unassembledRingbufNsamples := by
  have hcheck := of_decide_eq_false (h.check_false 16 (by decide))
  omega

theorem assembledRingbufNsamples_pos : 0 < c.assembledRingbufNsamples := by
  have hcheck := of_decide_eq_false (h.check_false 17 (by decide))
  omega

theorem telescoping_length_le : c.telescopingRingbufNsamples.length ≤ 4 := by
  have hcheck := of_decide_eq_false (h.check_false 18 (by decide))
  omega

theorem telescoping_pos : ∀ n ∈ c.telescopingRingbufNsamples, 0 < n := by
  intro n hn
  have hcheck : c.telescopingRingbufNsamples.any (· ≤ 0) = false := h.check_false 21 (by decide)
  have hn0 := List.any_eq_false.1 hcheck n hn
  simpa using hn0

theorem beamIds_ne_nil : c.beamIds ≠ [] := fun hnil => by
  have hlen := h.beamIds_length
  have hpos := h.nbeams_pos
  rw [hnil] at hlen
  simp only [List.length_nil] at hlen
  omega

end L1Config.Sane

/-- The last checks, the derived parameters and the warnings. -/
def finishConfig (env : Env) (bonsai : Option BonsaiConfig) (p : Paramfile) (requestedKeys : List String)
    (c : L1Config) : Except Stop L1Config := do
  runChecks (streamChecks c)
  let c := deriveL1b bonsai (deriveParams env c)
  if hasWarnings bonsai p requestedKeys c then
    c.haveWarnings
  return c

/-- The constructor up to the acquisition's directories. -/
def readConfig (env : Env) (opts : Options) (p : Paramfile) : Reading L1Config := do
  let (c, bonsai) ← readCommon env opts p
  let c ← readStream opts p c
  finishConfig env bonsai p (← get) c

def makeAcqdirs (c : L1Config) : Sys Filename :=
  acqnameToFilenamePattern c.streamDevname c.streamAcqname (vrange 1 (c.nstreams + 1)) c.streamBeamIds true

def L1Config.setPattern (c : L1Config) (streamFilenamePattern : Filename) : L1Config := { c with streamFilenamePattern }

def l1Config (env : Env) (opts : Options) (p : Paramfile) (t : Tree) : Except Stop L1Config × Tree :=
  match (readConfig env opts p).run' [] with
  | .error e => (.error e, t)
  | .ok c    =>
    match Prog.solo Posix.perform (makeAcqdirs c) t with
    | (.ok pattern, t) => (.ok (c.setPattern pattern), t)
    | (.error what, t) => (.error (.threw what), t)

end Config
end FrbL1
