import FrbL1.L1Server
/-!
# L0Params — the parameters of the L0 simulator

The constructor of `l0_params`: reading the parameter file, the checks and assertions, the derived parameters and the
output streams, one for each thread.
-/
namespace FrbL1
namespace L0

open Config

def nfreqCoarse : Int := nfreqCoarseTot

/-- An `intensity_network_ostream`: what it is made with. -/
structure Ostream where
  dstname                : List Char
  beamIds                : List Int
  coarseFreqIds          : List Int
  nupfreq                : Int
  ntPerChunk             : Int
  nfreqCoarsePerPacket   : Int
  ntPerPacket            : Int
  fpgaCountsPerSample    : Int
  printStatusAtEnd       : Bool
  targetGbps             : ℚ
  sendEndOfStreamPackets : Bool

structure L0Env where
  packetSize  : Int → Int → Int → Int → Int
  makeOstream : Ostream → Except Stop Unit

structure L0Params where
  gbps                 : ℚ
  nbeamsTot            : Int
  nthreadsTot          : Int
  nfreqFine            : Int
  ntPerPacket          : Int
  ipaddr               : List (List Char)
  port                 : List Int
  nstreams             : Int
  fpgaCountsPerSample  : Int
  maxPacketSize        : Int
  initialTimeIndex     : Nat
  nfreqCoarsePerPacket : Int
  nupfreq              : Int
  nbeamsPerStream      : Int
  nthreadsPerStream    : Int
  nfreqCoarsePerThread : Int
  packetSize           : Int
  streams              : List Ostream

/-! ## Reading -/

def assert (c : Prop) [Decidable c] : Except Stop Unit := if c then .ok () else .error .aborted

def throwIf (c : Prop) [Decidable c] (txt : List Char) : Except Stop Unit :=
  if c then .error (.threw txt) else .ok ()

/-- The members that are set later have their initial values. -/
def readL0 (gbps : ℚ) (p : Paramfile) : Reading L0Params := do
  let nbeamsTot ← p.readScalar int "nbeams"
  let nthreadsTot ← p.readScalar int "nthreads"
  let nfreqFine ← p.readScalar int "nfreq"
  let ntPerPacket ← p.readScalar int "nt_per_packet"
  let fpgaCountsPerSample ← p.readScalarD int "fpga_counts_per_sample" 384
  let maxPacketSize ← p.readScalarD int "max_packet_size" 8900
  let initialTimeIndex ← p.readScalarD int "initial_time_index" 0
  let ipaddr ← p.readVector string "ipaddr"
  let port ← p.readVector int "port"
  return {
    gbps, nbeamsTot, nthreadsTot, nfreqFine, ntPerPacket, ipaddr, port, nstreams := 0, fpgaCountsPerSample,
    maxPacketSize, initialTimeIndex := (initialTimeIndex % 2 ^ 64).toNat, nfreqCoarsePerPacket := 0, nupfreq := 0,
    nbeamsPerStream := 0, nthreadsPerStream := 0, nfreqCoarsePerThread := 0, packetSize := 0, streams := [] }

/-- One address for several ports, or one port for several addresses. -/
def broadcast (l : L0Params) : L0Params :=
  if l.ipaddr.length = 1 ∧ l.port.length > 1 then
    { l with ipaddr := List.replicate l.port.length (l.ipaddr.headD []) }
  else if l.ipaddr.length > 1 ∧ l.port.length = 1 then
    { l with port := List.replicate l.ipaddr.length (l.port.headD 0) }
  else l

def countStreams (filename : List Char) (l : L0Params) : Except Stop L0Params :=
  if l.ipaddr.length ≠ l.port.length then
    .error (.threw (filename ++ " expected 'ip_addr' and 'port' to be lists of equal length".toList))
  else .ok { l with nstreams := l.ipaddr.length }

/-! ## Checks -/

def isPowerOfTwo (n : Int) : Except Stop Bool := do
  assert (n ≥ 1)
  return decide (n.toNat &&& (n.toNat - 1) = 0)

/-- `1 << int(floor(log2(x)))` -/
def roundDownToPowerOfTwo (x : Int) : Except Stop Int := do
  assert (x ≥ 1 ∧ x < 10 ^ 9)
  return 2 ^ x.toNat.log2

def inferred (l : L0Params) : List Char :=
  FileUtils.toString l.nstreams ++ ", inferred by counting (ipaddr,port) pairs)".toList

def checkParams (filename : List Char) (l : L0Params) : Except Stop Unit := do
  assert (l.nstreams > 0)
  assert (l.nthreadsTot > 0)
  assert (l.nthreadsTot ≤ 32)
  assert (l.nbeamsTot > 0)
  assert (l.nfreqFine > 0)
  assert (l.fpgaCountsPerSample > 0)
  assert (l.maxPacketSize > 0)
  assert ((l.ipaddr.length : Int) = l.nstreams)
  assert ((l.port.length : Int) = l.nstreams)
  assert (∀ port ∈ l.port, port > 0 ∧ port < 65536)
  let pow ← if l.ntPerPacket ≤ 0 then pure false else isPowerOfTwo l.ntPerPacket
  throwIf (pow = false) (filename ++ ": nt_per_packet(=".toList ++ FileUtils.toString l.ntPerPacket ++
    " must be a power of two".toList)
  throwIf (l.nbeamsTot.tmod l.nstreams ≠ 0) (filename ++ ": nbeams (=".toList ++ FileUtils.toString l.nbeamsTot ++
    ") must be a multiple of nstreams (=".toList ++ inferred l)
  throwIf (l.nthreadsTot.tmod l.nstreams ≠ 0) (filename ++ ": nthreads (=".toList ++
    FileUtils.toString l.nthreadsTot ++ ") must be a multiple of nstreams (=".toList ++ inferred l)
  let pow ← isPowerOfTwo (← xdiv l.nthreadsTot l.nstreams)
  throwIf (pow = false) (filename ++ ": nthreads (=".toList ++ FileUtils.toString l.nthreadsTot ++
    ") must be a power of two times nstreams (=".toList ++ inferred l)
  throwIf (l.nfreqFine.tmod nfreqCoarse ≠ 0) (filename ++ ": nfreq (=".toList ++ FileUtils.toString l.nfreqFine ++
    ") must be a multiple of ".toList ++ FileUtils.toString nfreqCoarse)

/-! ## Derived parameters -/

def deriveSizes (l : L0Params) : Except Stop L0Params := do
  let nbeamsPerStream ← xdiv l.nbeamsTot l.nstreams
  let nthreadsPerStream ← xdiv l.nthreadsTot l.nstreams
  let nfreqCoarsePerThread ← xdiv nfreqCoarse nthreadsPerStream
  let nupfreq ← xdiv l.nfreqFine nfreqCoarse
  return { l with nbeamsPerStream, nthreadsPerStream, nfreqCoarsePerThread, nupfreq }

def packetSizeOf (env : L0Env) (l : L0Params) (nfreqCoarsePerPacket : Int) : Int :=
  env.packetSize l.nbeamsPerStream nfreqCoarsePerPacket l.nupfreq l.ntPerPacket

/-- `nfreq_coarse_per_packet` is given. -/
def checkPerPacket (env : L0Env) (filename : List Char) (l : L0Params) (n : Int) : Except Stop Unit := do
  throwIf (n ≤ 0 ∨ l.nfreqCoarsePerThread.tmod n ≠ 0) (filename ++ ": nfreq_coarse_per_packet(=".toList ++
    FileUtils.toString n ++ " must be > 0 and evenly divide nfreq_coarse_per_thread(=".toList ++
    FileUtils.toString l.nfreqCoarsePerThread ++ ")".toList)
  throwIf (packetSizeOf env l n > l.maxPacketSize) (filename ++ ": computed packet size (=".toList ++
    FileUtils.toString (packetSizeOf env l n) ++ ") exceeds max_packet_size (=".toList ++
    FileUtils.toString l.maxPacketSize)

/-- If it is not given: as much as fits into a packet. -/
def defaultPerPacket (env : L0Env) (filename : List Char) (l : L0Params) : Except Stop Int := do
  let p0 := packetSizeOf env l 1
  throwIf (p0 > l.maxPacketSize) (filename ++ (": couldn't assign nfreq_coarse_per_packet: max_packet_size is " ++
    "exceeded for nfreq_coarse_per_packet=1!").toList)
  return min (← roundDownToPowerOfTwo (l.maxPacketSize.tdiv p0)) l.nfreqCoarsePerThread

def readPerPacket (env : L0Env) (p : Paramfile) (l : L0Params) : Reading Int :=
  if p.hasParam "nfreq_coarse_per_packet" then do
    let n ← p.readScalar int "nfreq_coarse_per_packet"
    checkPerPacket env p.filename l n
    return n
  else defaultPerPacket env p.filename l

def L0Params.setPerPacket (env : L0Env) (l : L0Params) (n : Int) : L0Params :=
  { l with nfreqCoarsePerPacket := n, packetSize := packetSizeOf env l n }

def assertPackets (l : L0Params) : Except Stop Unit := do
  assert (l.nfreqCoarsePerPacket > 0)
  assert (l.nfreqCoarsePerThread.tmod l.nfreqCoarsePerPacket = 0)
  assert (l.ntPerPacket > 0)
  assert ((← isPowerOfTwo l.ntPerPacket) = true)
  assert (l.packetSize ≤ l.maxPacketSize)

/-! ## Streams -/

def L0Params.istream (l : L0Params) (ithread : Nat) : Nat := ithread / l.nthreadsPerStream.toNat
def L0Params.jthread (l : L0Params) (ithread : Nat) : Nat := ithread % l.nthreadsPerStream.toNat

def dstname (ipaddr : List Char) (port : Int) : List Char := ipaddr ++ ":".toList ++ FileUtils.toString port

/-- `make_ostream`, for `ithread < nthreads_tot`. -/
def L0Params.makeOstream (l : L0Params) (ithread : Nat) : Ostream :=
  let istream := l.istream ithread
  let jthread := l.jthread ithread
  { dstname := dstname (l.ipaddr.getD istream []) (l.port.getD istream 0)
    beamIds := vrange (istream * l.nbeamsPerStream) ((istream + 1) * l.nbeamsPerStream)
    coarseFreqIds := vrange (jthread * l.nfreqCoarsePerThread) ((jthread + 1) * l.nfreqCoarsePerThread)
    nupfreq := l.nupfreq, ntPerChunk := ntPerAssembledChunk, nfreqCoarsePerPacket := l.nfreqCoarsePerPacket,
    ntPerPacket := l.ntPerPacket, fpgaCountsPerSample := l.fpgaCountsPerSample, printStatusAtEnd := false,
    targetGbps := l.gbps, sendEndOfStreamPackets := decide ((jthread : Int) = l.nthreadsPerStream - 1) }

def L0Params.nthreads (l : L0Params) : Nat := l.nthreadsTot.toNat

def makeStreams (env : L0Env) (l : L0Params) : Except Stop (List Ostream) :=
  (List.range l.nthreads).mapM (fun ithread => do
    let ostream := l.makeOstream ithread
    env.makeOstream ostream
    return ostream)

/-- `check_for_unused_params`, where they are fatal. -/
def dieOfUnused (p : Paramfile) : Reading Unit := do
  let requestedKeys ← get
  let unused := (p.nodes.map (·.1)).filter (fun k => !requestedKeys.contains k)
  if unused ≠ [] then
    p.die ((if unused.length > 1 then "unused parameters " else "unused parameter ") ++
      String.intercalate ", " (unused.map (fun k => "'" ++ k ++ "'")))

def l0Params (env : L0Env) (gbps : ℚ) (p : Paramfile) : Reading L0Params := do
  let l ← readL0 gbps p
  let l ← countStreams p.filename (broadcast l)
  checkParams p.filename l
  let l ← deriveSizes l
  let n ← readPerPacket env p l
  let l := l.setPerPacket env n
  dieOfUnused p
  assertPackets l
  let streams ← makeStreams env l
  return { l with streams }

/-- The threads whose `end_stream` is called by `end_streams`, in order. -/
def L0Params.endStreams (l : L0Params) : List Nat := List.range l.nthreads

/-! ## Accepted parameters -/

theorem mapM_map_ok {α β : Type} {f : α → Except Stop Unit} {g : α → β} : ∀ {as : List α} {bs : List β},
    as.mapM (fun a => do f a; return g a) = Except.ok bs → bs = as.map g
  | [],      bs, h => (Except.ok.inj h).symm
  | a :: as, bs, h => by
    rw [List.mapM_cons] at h
    obtain ⟨b, hb, h⟩ := bind_eq_ok h
    obtain ⟨_, -, hb⟩ := bind_eq_ok hb
    obtain ⟨bs', hbs, h⟩ := bind_eq_ok h
    obtain rfl := Except.ok.inj hb
    obtain rfl := Except.ok.inj h
    rw [mapM_map_ok hbs, List.map_cons]

structure L0Params.Wired (l : L0Params) : Prop where
  nbeams                   : l.nbeamsTot = l.nstreams * l.nbeamsPerStream
  nthreads                 : l.nthreadsTot = l.nstreams * l.nthreadsPerStream
  nfreq                    : nfreqCoarse = l.nthreadsPerStream * l.nfreqCoarsePerThread
  nstreams_pos             : 0 < l.nstreams
  nbeamsPerStream_pos      : 0 < l.nbeamsPerStream
  nthreadsPerStream_pos    : 0 < l.nthreadsPerStream
  nfreqCoarsePerThread_pos : 0 < l.nfreqCoarsePerThread
  streams                  : l.streams = (List.range l.nthreads).map l.makeOstream

structure L0Params.From (l l₀ : L0Params) : Prop where
  nbeams   : l.nbeamsTot = l₀.nbeamsTot
  ipaddr   : l.ipaddr = (broadcast l₀).ipaddr
  port     : l.port = (broadcast l₀).port
  nstreams : (l.ipaddr.length : Int) = l.nstreams ∧ l.ipaddr.length = l.port.length

theorem broadcast_eq (l : L0Params) : ∃ ipaddr port, broadcast l = { l with ipaddr, port } := by
  unfold broadcast
  split
  · exact ⟨_, l.port, rfl⟩
  · split
    · exact ⟨l.ipaddr, _, rfl⟩
    · exact ⟨l.ipaddr, l.port, rfl⟩

theorem broadcast_nbeamsTot (l : L0Params) : (broadcast l).nbeamsTot = l.nbeamsTot := by
  obtain ⟨ipaddr, port, h⟩ := broadcast_eq l
  rw [h]

theorem countStreams_ok {filename : List Char} {l l' : L0Params} (h : countStreams filename l = .ok l') :
    l.ipaddr.length = l.port.length ∧ l' = { l with nstreams := l.ipaddr.length } := by
  unfold countStreams at h
  split at h
  · cases h
  · rename_i hlen
    exact ⟨not_not.1 hlen, (Except.ok.inj h).symm⟩

theorem deriveSizes_ok {l l' : L0Params} (h : deriveSizes l = .ok l') :
    ∃ nbeamsPerStream nthreadsPerStream nfreqCoarsePerThread nupfreq, xdiv l.nbeamsTot l.nstreams = .ok nbeamsPerStream ∧
      xdiv l.nthreadsTot l.nstreams = .ok nthreadsPerStream ∧
      xdiv nfreqCoarse nthreadsPerStream = .ok nfreqCoarsePerThread ∧ xdiv l.nfreqFine nfreqCoarse = .ok nupfreq ∧
      l' = { l with nbeamsPerStream, nthreadsPerStream, nfreqCoarsePerThread, nupfreq } := by
  unfold deriveSizes at h
  obtain ⟨nb, hnb, h⟩ := bind_eq_ok h
  obtain ⟨nt, hnt, h⟩ := bind_eq_ok h
  obtain ⟨nf, hnf, h⟩ := bind_eq_ok h
  obtain ⟨nu, hnu, h⟩ := bind_eq_ok h
  exact ⟨nb, nt, nf, nu, hnb, hnt, hnf, hnu, (Except.ok.inj h).symm⟩

theorem l0Params_parts {env : L0Env} {gbps : ℚ} {p : Paramfile} {l : L0Params} {R : List String}
    (h : (l0Params env gbps p).run [] = .ok (l, R)) : ∃ l₀ R₀ l₁ l₂ n streams, (readL0 gbps p).run [] = .ok (l₀, R₀) ∧
      countStreams p.filename (broadcast l₀) = .ok l₁ ∧ checkParams p.filename l₁ = .ok () ∧ deriveSizes l₁ = .ok l₂ ∧
      makeStreams env (l₂.setPerPacket env n) = .ok streams ∧ l = { l₂.setPerPacket env n with streams } := by
  unfold l0Params at h
  obtain ⟨l₀, R₀, hread, h⟩ := run_bind_eq_ok h
  obtain ⟨l₁, _, hcount, h⟩ := run_bind_eq_ok h
  obtain ⟨_, _, hcheck, h⟩ := run_bind_eq_ok h
  obtain ⟨l₂, _, hsizes, h⟩ := run_bind_eq_ok h
  obtain ⟨n, _, -, h⟩ := run_bind_eq_ok h
  obtain ⟨_, _, -, h⟩ := run_bind_eq_ok h
  obtain ⟨_, _, -, h⟩ := run_bind_eq_ok h
  obtain ⟨streams, _, hstreams, h⟩ := run_bind_eq_ok h
  cases h
  exact ⟨l₀, R₀, l₁, l₂, n, streams, hread, (run_lift_eq_ok hcount).1, (run_lift_eq_ok hcheck).1,
    (run_lift_eq_ok hsizes).1, (run_lift_eq_ok hstreams).1, rfl⟩

/-- **What the constructor accepts.** -/
theorem l0Params_ok {env : L0Env} {gbps : ℚ} {p : Paramfile} {l : L0Params} {R : List String}
    (h : (l0Params env gbps p).run [] = .ok (l, R)) :
    l.Wired ∧ ∃ l₀ R₀, (readL0 gbps p).run [] = .ok (l₀, R₀) ∧ l.From l₀ := by
  obtain ⟨l₀, R₀, l₁, l₂, n, streams, hread, hcount, -, hsizes, hstreams, rfl⟩ := l0Params_parts h
  obtain ⟨hlen, rfl⟩ := countStreams_ok hcount
  obtain ⟨nb, nt, nf, nu, hnb, hnt, hnf, -, rfl⟩ := deriveSizes_ok hsizes
  obtain ⟨hnb, hpos, hnbpos⟩ := xdiv_eq_ok hnb
  obtain ⟨hnt, -, hntpos⟩ := xdiv_eq_ok hnt
  obtain ⟨hnf, -, hnfpos⟩ := xdiv_eq_ok hnf
  exact ⟨⟨hnb, hnt, hnf, hpos, hnbpos, hntpos, hnfpos, mapM_map_ok hstreams⟩, l₀, R₀, hread,
    broadcast_nbeamsTot l₀, rfl, rfl, rfl, hlen⟩

end L0
end FrbL1
