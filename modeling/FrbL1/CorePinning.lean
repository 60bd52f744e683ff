import FrbL1.LowBudgetParser
import FrbL1.L0Streams
import FrbL1.L1Buffers
/-!
# CorePinning — the cores that the L1 server's threads are pinned to

The three modes of the constructor with the cores that they assign, `spawn_l1b_subprocesses` and
`spawn_dedispersion_threads`.  The machine is the one of the comment at the top of the source: the logical cores `c` and
`c + 20` are the two hyperthreads of one core, and of those the first ten are on the first cpu.
-/
namespace FrbL1
namespace Config

open L0 (mem_vrange)
open Posix (Filename Tree)

/-- The members of `l1_server` that say where threads run. -/
structure Pinning where
  ncpus                    : Int
  coresOnCpu               : List (List Int)
  outputThreadCores        : List Int
  networkThreadCores       : List Int
  dedispersionCores        : List (List Int)
  assemblerThreadCores     : List (List Int)
  asynchronousDedispersion : Bool
  sleepHack                : ℚ

def Pinning.init (c : L1Config) : Pinning where
  ncpus                    := 0
  coresOnCpu               := []
  outputThreadCores        := []
  networkThreadCores       := []
  dedispersionCores        := List.replicate c.nbeams.toNat []
  assemblerThreadCores     := List.replicate c.nstreams.toNat []
  asynchronousDedispersion := false
  sleepHack                := 0

def initSubscale (c : L1Config) (q : Pinning) : Except Stop Pinning := do
  if c.nfreq > 4096 then
    c.haveWarnings
  return { q with ncpus := 1, coresOnCpu := [[]] }

/-- `for (i = 0; i < 2; i++) for (j = 0; j < n; j++) dedispersion_cores[n*i+j] = cores(i,j)` -/
def assignCores (n : Nat) (cores : Nat → Nat → List Int) (q : List (List Int)) : List (List Int) :=
  (List.range 2).foldl (fun q i => (List.range n).foldl (fun q j => q.set (n * i + j) (cores i j)) q) q

/-- A core and its hyperthread. -/
def cores16 (i j : Nat) : List Int := [10 * i + j, 10 * i + j + 20]

def cores8 (i j : Nat) : List Int := [10 * i + 2 * j, 10 * i + 2 * j + 1, 10 * i + j + 20, 10 * i + j + 21]

def coresOnCpu : List (List Int) := [vrange 0 10 ++ vrange 20 30, vrange 10 20 ++ vrange 30 40]

def init20cores16beams (c : L1Config) (q : Pinning) : Except Stop Pinning := do
  if c.nstreams ≠ 4 then
    throw (.threw ("ch-frb-l1: in the \"production\" 16-beam case, we currently require 4 streams (this could be " ++
      "generalized pretty easily)").toList)
  return { q with
    ncpus := 2, coresOnCpu, sleepHack := if c.tflag then 5 else 30, outputThreadCores := [9, 29]
    assemblerThreadCores := (((q.assemblerThreadCores.set 0 [8, 28]).set 1 [8, 28]).set 2 [18, 38]).set 3 [18, 38]
    networkThreadCores := coresOnCpu.getD 0 [], dedispersionCores := assignCores 8 cores16 q.dedispersionCores }

def init20cores8beams (c : L1Config) (q : Pinning) : Except Stop Pinning := do
  if c.nstreams ≠ 2 then
    throw (.threw ("ch-frb-l1: in the \"production\" 8-beam case, we currently require 2 streams (this could be " ++
      "generalized pretty easily)").toList)
  return { q with
    ncpus := 2, coresOnCpu, outputThreadCores := [9, 29]
    assemblerThreadCores := (q.assemblerThreadCores.set 0 [8, 28]).set 1 [18, 38]
    networkThreadCores := coresOnCpu.getD 0 [], sleepHack := if c.tflag then 5 else 30
    asynchronousDedispersion := true, dedispersionCores := assignCores 4 cores8 q.dedispersionCores }

/-- `l1_server::l1_server`, for a machine with so many cores. -/
def pinning (numCores : Int) (c : L1Config) : Except Stop Pinning := do
  let q ←
    if c.nbeams ≤ 4 then initSubscale c (.init c)
    else if c.nbeams = 16 ∧ numCores = 20 then init20cores16beams c (.init c)
    else if c.nbeams = 8 ∧ numCores = 20 then init20cores8beams c (.init c)
    else .error (.exit 1)
  return { q with asynchronousDedispersion := c.forceAsynchronousDedispersion || q.asynchronousDedispersion }

theorem map_pinning (numCores : Int) (c : L1Config) : (pinning numCores c).map (·.ncpus) = initServer numCores c := by
  unfold pinning initServer
  by_cases h4 : c.nbeams ≤ 4
  · rw [if_pos h4, if_pos h4]
    unfold initSubscale
    by_cases hn : c.nfreq > 4096
    · rw [if_pos hn, if_pos hn]
      cases c.haveWarnings <;> rfl
    · rw [if_neg hn, if_neg hn]
      rfl
  · rw [if_neg h4, if_neg h4]
    by_cases h16 : c.nbeams = 16 ∧ numCores = 20
    · rw [if_pos h16, if_pos h16]
      unfold init20cores16beams
      by_cases hs : c.nstreams ≠ 4
      · rw [if_pos hs, if_pos hs]
        rfl
      · rw [if_neg hs, if_neg hs]
        rfl
    · rw [if_neg h16, if_neg h16]
      by_cases h8 : c.nbeams = 8 ∧ numCores = 20
      · rw [if_pos h8, if_pos h8]
        unfold init20cores8beams
        by_cases hs : c.nstreams ≠ 2
        · rw [if_pos hs, if_pos hs]
          rfl
        · rw [if_neg hs, if_neg hs]
          rfl
      · rw [if_neg h8, if_neg h8]
        rfl

/-! ## L1b and the dedispersion threads -/

structure L1bSubprocess where
  commandLine  : List (List Char)
  timeout      : ℚ
  blocking     : Bool
  searchPath   : Bool
  verbosity    : Int
  pipeCapacity : Int
  childCores   : List Int

def spawnL1bSubprocesses (cl : CommandLine) (c : L1Config) (q : Pinning) : List (Option L1bSubprocess) :=
  if c.tflag then List.replicate c.nbeams.toNat none
  else if c.l1bExecutableFilename.length = 0 then List.replicate c.nbeams.toNat none
  else (List.range c.nbeams.toNat).map (fun ibeam => some {
    commandLine := [c.l1bExecutableFilename, cl.options.args.getD 3 [], FileUtils.toString (c.beamIds.getD ibeam 0)]
    timeout := c.l1bPipeTimeout, blocking := c.l1bPipeBlocking, searchPath := c.l1bSearchPath
    verbosity := if cl.l1bPipeIoDebug then 3 else cl.l1Verbosity, pipeCapacity := c.l1bPipeCapacity
    childCores := q.dedispersionCores.getD ibeam [] })

/-- `dedispersion_thread_context`, with the index of the stream for `sp` and `ms_map`. -/
structure DedispersionThread where
  istream                  : Nat
  l1bSubprocess            : Option L1bSubprocess
  allowedCores             : List Int
  asynchronousDedispersion : Bool
  ibeam                    : Nat

def spawnDedispersionThreads (c : L1Config) (q : Pinning) (l1bSubprocesses : List (Option L1bSubprocess)) :
    Except Stop (List DedispersionThread) :=
  (List.range c.nbeams.toNat).mapM (fun ibeam => do
    let nbeamsPerStream ← xdiv c.nbeams c.nstreams
    return {
      istream := ibeam / nbeamsPerStream.toNat, l1bSubprocess := l1bSubprocesses.getD ibeam none
      allowedCores := q.dedispersionCores.getD ibeam [], asynchronousDedispersion := q.asynchronousDedispersion, ibeam })

/-! ## The loop over the dedispersion threads -/

theorem length_foldl_set {α : Type} (b : Nat) (f : Nat → α) (n : Nat) (q : List α) :
    ((List.range n).foldl (fun q j => q.set (b + j) (f j)) q).length = q.length := by
  induction n with
  | zero => rfl
  | succ n ih => rw [List.range_succ, List.foldl_append, List.foldl_cons, List.foldl_nil, List.length_set, ih]

theorem getElem?_foldl_set {α : Type} (b : Nat) (f : Nat → α) (n : Nat) {q : List α} {k : Nat} (hk : k < q.length) :
    ((List.range n).foldl (fun q j => q.set (b + j) (f j)) q)[k]? =
      if b ≤ k ∧ k < b + n then some (f (k - b)) else q[k]? := by
  induction n with
  | zero => rw [if_neg (by omega)]; rfl
  | succ n ih =>
    rw [List.range_succ, List.foldl_append, List.foldl_cons, List.foldl_nil, List.getElem?_set, length_foldl_set, ih]
    by_cases h : b + n = k
    · rw [if_pos h, if_pos (by omega), if_pos (by omega), ← h, Nat.add_sub_cancel_left]
    · rw [if_neg h]
      by_cases hin : b ≤ k ∧ k < b + n
      · rw [if_pos hin, if_pos (by omega)]
      · rw [if_neg hin, if_neg (by omega)]

theorem getElem?_assignCores {n : Nat} (cores : Nat → Nat → List Int) {q : List (List Int)} (hq : q.length = n * 2)
    {b : Nat} (hb : b < n * 2) : (assignCores n cores q)[b]? = some (cores (b / n) (b % n)) := by
  have hpos : 0 < n := by omega
  have hb0 : b < q.length := hq ▸ hb
  have hb1 : b < ((List.range n).foldl (fun q j => q.set (n * 0 + j) (cores 0 j)) q).length := by
    rw [length_foldl_set]
    exact hb0
  show ((List.range n).foldl (fun q j => q.set (n * 1 + j) (cores 1 j))
    ((List.range n).foldl (fun q j => q.set (n * 0 + j) (cores 0 j)) q))[b]? = _
  rw [getElem?_foldl_set _ _ _ hb1, getElem?_foldl_set _ _ _ hb0]
  by_cases h : b < n
  · rw [if_neg (by omega), if_pos (by omega), Nat.div_eq_of_lt h, Nat.mod_eq_of_lt h, Nat.mul_zero, Nat.sub_zero]
  · have hdiv : b / n = 1 := by
      rw [Nat.div_eq_of_lt_le] <;> omega
    have hmod : b % n = b - n * 1 := by
      have := Nat.div_add_mod b n
      rw [hdiv] at this
      omega
    rw [if_pos (by omega), hdiv, hmod]

/-! ## The machine -/

def physicalCore (core : Int) : Int := core % 20
def cpuOf (core : Int) : Int := physicalCore core / 10

theorem mem_coresOnCpu {icpu : Nat} {core : Int} {cores : List Int} (h : coresOnCpu[icpu]? = some cores) :
    core ∈ cores ↔ 0 ≤ core ∧ core < 40 ∧ cpuOf core = icpu := by
  unfold cpuOf physicalCore
  match icpu, h with
  | 0, h | 1, h =>
    obtain rfl := Option.some.inj h
    rw [List.mem_append, mem_vrange, mem_vrange]
    omega

/-! ## A production server -/

/-- What both modes have in common: `n` beams and `k` streams a cpu. -/
structure Production (c : L1Config) (q : Pinning) (n k : Nat) (cores : Nat → Nat → List Int) : Prop where
  nbeams     : c.nbeams = (n * 2 : Nat)
  nstreams   : c.nstreams = (k * 2 : Nat)
  k_pos      : 0 < k
  coresOnCpu : q.coresOnCpu = coresOnCpu
  output     : q.outputThreadCores = [9, 29]
  network    : q.networkThreadCores = Config.coresOnCpu.getD 0 []
  dedispersion : ∀ b < n * 2, q.dedispersionCores[b]? = some (cores (b / n) (b % n))
  assembler  : ∀ i < k * 2,
    q.assemblerThreadCores[i]? = some [10 * ((i / k : Nat) : Int) + 8, 10 * ((i / k : Nat) : Int) + 28]
  length_assembler : q.assemblerThreadCores.length = k * 2
  cores_ne_nil : ∀ i j, cores i j ≠ []
  cpuOf_cores : ∀ i < 2, ∀ j < n, ∀ core ∈ cores i j, cpuOf core = i ∧ physicalCore core % 10 < 8

theorem production16 {c : L1Config} (hbeams : c.nbeams = 16) (hstreams : c.nstreams = 4) :
    ∃ q, pinning 20 c = .ok q ∧ Production c q 8 2 cores16 := by
  obtain ⟨q, hq, hcpu, hout, hnet, hdedispersion, hassembler⟩ : ∃ q, pinning 20 c = .ok q ∧ q.coresOnCpu = coresOnCpu ∧
      q.outputThreadCores = [9, 29] ∧ q.networkThreadCores = coresOnCpu.getD 0 [] ∧
      q.dedispersionCores = assignCores 8 cores16 (List.replicate c.nbeams.toNat []) ∧
      q.assemblerThreadCores = [[8, 28], [8, 28], [18, 38], [18, 38]] := by
    unfold pinning
    rw [if_neg (by omega), if_pos ⟨hbeams, rfl⟩]
    unfold init20cores16beams
    rw [if_neg (fun h => h hstreams)]
    refine ⟨_, rfl, ?_⟩
    simp only [Pinning.init, hstreams, true_and]
    rfl
  have hlength : (List.replicate c.nbeams.toNat ([] : List Int)).length = 8 * 2 := by
    rw [List.length_replicate, hbeams]
    rfl
  refine ⟨q, hq, hbeams, hstreams, by decide, hcpu, hout, hnet, fun b hb => ?_, ?_, by rw [hassembler]; rfl,
    fun i j => List.cons_ne_nil _ _, fun i hi j hj core hcore => ?_⟩
  · rw [hdedispersion]
    exact getElem?_assignCores cores16 hlength hb
  · rw [hassembler]
    decide
  · simp only [cores16, List.mem_cons, List.not_mem_nil, or_false] at hcore
    unfold cpuOf physicalCore
    omega

theorem production8 {c : L1Config} (hbeams : c.nbeams = 8) (hstreams : c.nstreams = 2) :
    ∃ q, pinning 20 c = .ok q ∧ Production c q 4 1 cores8 := by
  obtain ⟨q, hq, hcpu, hout, hnet, hdedispersion, hassembler⟩ : ∃ q, pinning 20 c = .ok q ∧ q.coresOnCpu = coresOnCpu ∧
      q.outputThreadCores = [9, 29] ∧ q.networkThreadCores = coresOnCpu.getD 0 [] ∧
      q.dedispersionCores = assignCores 4 cores8 (List.replicate c.nbeams.toNat []) ∧
      q.assemblerThreadCores = [[8, 28], [18, 38]] := by
    unfold pinning
    rw [if_neg (by omega), if_neg (fun h => by omega), if_pos ⟨hbeams, rfl⟩]
    unfold init20cores8beams
    rw [if_neg (fun h => h hstreams)]
    refine ⟨_, rfl, ?_⟩
    simp only [Pinning.init, hstreams, true_and]
    rfl
  have hlength : (List.replicate c.nbeams.toNat ([] : List Int)).length = 4 * 2 := by
    rw [List.length_replicate, hbeams]
    rfl
  refine ⟨q, hq, hbeams, hstreams, by decide, hcpu, hout, hnet, fun b hb => ?_, ?_, by rw [hassembler]; rfl,
    fun i j => List.cons_ne_nil _ _, fun i hi j hj core hcore => ?_⟩
  · rw [hdedispersion]
    exact getElem?_assignCores cores8 hlength hb
  · rw [hassembler]
    decide
  · simp only [cores8, List.mem_cons, List.not_mem_nil, or_false] at hcore
    unfold cpuOf physicalCore
    omega

theorem production_of_initServer {numCores ncpus : Int} {c : L1Config} (h : initServer numCores c = .ok ncpus)
    (hmany : 4 < c.nbeams) : ∃ q, pinning numCores c = .ok q ∧ ncpus = 2 ∧
      (Production c q 8 2 cores16 ∨ Production c q 4 1 cores8) := by
  unfold initServer at h
  rw [if_neg (by omega)] at h
  by_cases h16 : c.nbeams = 16 ∧ numCores = 20
  · rw [if_pos h16] at h
    by_cases hs : c.nstreams ≠ 4
    · rw [if_pos hs] at h
      cases h
    · rw [if_neg hs] at h
      obtain ⟨q, hq, hp⟩ := production16 h16.1 (not_not.1 hs)
      exact ⟨q, h16.2 ▸ hq, (Except.ok.inj h).symm, .inl hp⟩
  · rw [if_neg h16] at h
    by_cases h8 : c.nbeams = 8 ∧ numCores = 20
    · rw [if_pos h8] at h
      by_cases hs : c.nstreams ≠ 2
      · rw [if_pos hs] at h
        cases h
      · rw [if_neg hs] at h
        obtain ⟨q, hq, hp⟩ := production8 h8.1 (not_not.1 hs)
        exact ⟨q, h8.2 ▸ hq, (Except.ok.inj h).symm, .inr hp⟩
    · rw [if_neg h8] at h
      cases h

/-! ## Every thread is where its data is -/

/-- `threads[b]` is where it should be: it gets its chunks from the stream that has the beam, on the cpu whose memory the
stream uses, and its L1b process runs on the same cores. -/
structure DedispersionThread.Placed (th : DedispersionThread) (s : L1Server) (b : Nat) : Prop where
  ibeam  : th.ibeam = b
  stream : ∃ x, s.inputStreams[th.istream]? = some x ∧ s.config.beamIds[b]? =
    x.iniParams.beamIds[b % s.config.nbeamsPerStream]? ∧ ∀ core ∈ th.allowedCores, cpuOf core = x.iniParams.memoryPool
  cores_ne_nil : th.allowedCores ≠ []
  l1b    : ∀ l1b, th.l1bSubprocess = some l1b → l1b.childCores = th.allowedCores ∧
    l1b.commandLine[2]? = (s.config.beamIds[b]?).map FileUtils.toString

structure Placement (s : L1Server) (q : Pinning) (ths : List DedispersionThread) : Prop where
  length    : (ths.length : Int) = s.config.nbeams
  thread    : ∀ (b : Nat) (th : DedispersionThread), ths[b]? = some th → th.Placed s b
  assembler : ∀ (i : Nat) (x : InputStream), s.inputStreams[i]? = some x → ∃ cores,
    q.assemblerThreadCores[i]? = some cores ∧ cores ≠ [] ∧ ∀ core ∈ cores, cpuOf core = x.iniParams.memoryPool
  memory    : ∀ x ∈ s.inputStreams, ∃ cores, q.coresOnCpu[x.iniParams.memoryPool.toNat]? = some cores ∧
    ∀ core, core ∈ cores ↔ 0 ≤ core ∧ core < 40 ∧ cpuOf core = x.iniParams.memoryPool
  firstCpu  : ∀ core, core ∈ q.outputThreadCores ∨ core ∈ q.networkThreadCores → cpuOf core = 0
  apart     : ∀ th ∈ ths, ∀ core ∈ th.allowedCores, ∀ core',
    core' ∈ q.outputThreadCores ∨ (∃ cores ∈ q.assemblerThreadCores, core' ∈ cores) →
    physicalCore core ≠ physicalCore core'

namespace Production

variable {s : L1Server} {q : Pinning} {n k : Nat} {cores : Nat → Nat → List Int}

theorem nbeamsPerStream (hp : Production s.config q n k cores) (hw : s.Wired) : s.config.nbeamsPerStream * k = n := by
  have h := hw.nbeams
  rw [hp.nbeams, hp.nstreams] at h
  have hnat : n * 2 = k * 2 * s.config.nbeamsPerStream := by exact_mod_cast h
  have hcomm : k * 2 * s.config.nbeamsPerStream = s.config.nbeamsPerStream * k * 2 := by ring
  omega

theorem inputStreams (_ : Production s.config q n k cores) (hc : s.PerCpu 2 k) {i : Nat} {x : InputStream}
    (hx : s.inputStreams[i]? = some x) : i < k * 2 ∧ x.iniParams.memoryPool = (i / k : Nat) ∧
      x.iniParams.beamIds = streamSlice s.config s.config.nbeamsPerStream i := by
  obtain ⟨nupfreq, hss⟩ := hc.inputStreams
  rw [hss, List.getElem?_map] at hx
  obtain ⟨i', hi', rfl⟩ := Option.map_eq_some_iff.1 hx
  have hlt : i < 2 * k := by
    by_contra hge
    rw [List.getElem?_eq_none (by rw [List.length_range]; omega)] at hi'
    cases hi'
  rw [List.getElem?_range hlt] at hi'
  obtain rfl := Option.some.inj hi'
  exact ⟨by omega, (Int.ofNat_tdiv i k).symm, rfl⟩

theorem getElem?_l1b (cl : CommandLine) (c : L1Config) (q : Pinning) {b : Nat} (hb : b < c.nbeams.toNat)
    {l1b : L1bSubprocess} (h : (spawnL1bSubprocesses cl c q).getD b none = some l1b) :
    l1b.childCores = q.dedispersionCores.getD b [] ∧
      l1b.commandLine[2]? = some (FileUtils.toString (c.beamIds.getD b 0)) := by
  have hnone : (List.replicate c.nbeams.toNat (none : Option L1bSubprocess)).getD b none = none := by
    rw [List.getD_eq_getElem?_getD, List.getElem?_replicate, if_pos hb]
    rfl
  unfold spawnL1bSubprocesses at h
  split at h
  · rw [hnone] at h
    cases h
  · split at h
    · rw [hnone] at h
      cases h
    · rw [List.getD_eq_getElem?_getD, List.getElem?_map, List.getElem?_range hb] at h
      obtain rfl := Option.some.inj h
      exact ⟨rfl, rfl⟩

theorem placed (hp : Production s.config q n k cores) (hw : s.Wired) (hc : s.PerCpu 2 k) (cl : CommandLine) {b : Nat}
    (hb : b < n * 2) (async : Bool) :
    (DedispersionThread.mk (b / s.config.nbeamsPerStream) ((spawnL1bSubprocesses cl s.config q).getD b none)
      (q.dedispersionCores.getD b []) async b).Placed s b := by
  have hbeams : s.config.nbeams.toNat = n * 2 := by rw [hp.nbeams, Int.toNat_natCast]
  have hcores : q.dedispersionCores.getD b [] = cores (b / n) (b % n) := by
    rw [List.getD_eq_getElem?_getD, hp.dedispersion b hb, Option.getD_some]
  have hpos := hw.nbeamsPerStream_pos
  have hstreams : b / s.config.nbeamsPerStream < k * 2 := by
    rw [Nat.div_lt_iff_lt_mul hpos, Nat.mul_right_comm, Nat.mul_comm k, hp.nbeamsPerStream hw]
    exact hb
  have hcpu : b / s.config.nbeamsPerStream / k = b / n := by rw [Nat.div_div_eq_div_mul, hp.nbeamsPerStream hw]
  obtain ⟨x, hx, -⟩ := hw.getElem?_inputStreams (i := b / s.config.nbeamsPerStream) (by
    rw [hp.nstreams, Int.toNat_natCast]
    exact hstreams)
  obtain ⟨-, hpool, hids⟩ := hp.inputStreams hc hx
  have hlength : s.config.beamIds.length = n * 2 := by
    rw [hw.length_beamIds, hp.nstreams, Int.toNat_natCast, ← hp.nbeamsPerStream hw]
    ring
  refine ⟨rfl, ⟨x, hx, ?_, fun core hcore => ?_⟩, ?_, fun l1b hl1b => ?_⟩
  · rw [hids, streamSlice, Int.toNat_natCast, Slices.getElem?_slice_div _ hpos]
  · rw [hcores] at hcore
    have hn : 0 < n := by omega
    rw [hpool, hcpu]
    exact (hp.cpuOf_cores (b / n) (Nat.div_lt_of_lt_mul hb) (b % n) (Nat.mod_lt b hn) core hcore).1
  · rw [hcores]
    exact hp.cores_ne_nil _ _
  · obtain ⟨hchild, hid⟩ := getElem?_l1b cl s.config q (hbeams ▸ hb) hl1b
    refine ⟨hchild, hid.trans ?_⟩
    rw [List.getD_eq_getElem?_getD, List.getElem?_eq_getElem (hlength ▸ hb)]
    rfl

theorem spawnDedispersionThreads_eq (hp : Production s.config q n k cores) (hw : s.Wired)
    (l1bs : List (Option L1bSubprocess)) : spawnDedispersionThreads s.config q l1bs = .ok ((List.range (n * 2)).map
      (fun b => ⟨b / s.config.nbeamsPerStream, l1bs.getD b none, q.dedispersionCores.getD b [],
        q.asynchronousDedispersion, b⟩)) := by
  have hdiv : xdiv s.config.nbeams s.config.nstreams = .ok s.config.nbeamsPerStream := by
    unfold xdiv L1Config.nbeamsPerStream
    rw [if_pos ⟨hw.nbeams_pos, hw.nstreams_pos, Int.tmod_eq_zero_of_dvd ⟨_, hw.nbeams⟩⟩,
      Int.toNat_of_nonneg (Int.tdiv_nonneg hw.nbeams_pos.le hw.nstreams_pos.le)]
  unfold spawnDedispersionThreads
  rw [hp.nbeams, Int.toNat_natCast]
  refine Fallible.mapM_eq_pure (fun b hb => ?_)
  rw [← hp.nbeams, hdiv]
  rfl

theorem placement (hp : Production s.config q n k cores) (hw : s.Wired) (hc : s.PerCpu 2 k) (cl : CommandLine) :
    ∃ ths, spawnDedispersionThreads s.config q (spawnL1bSubprocesses cl s.config q) = .ok ths ∧ Placement s q ths := by
  refine ⟨_, hp.spawnDedispersionThreads_eq hw _, ?_, fun b th hth => ?_, fun i x hx => ?_, fun x hx => ?_,
    fun core hcore => ?_, fun th hth core hcore core' hcore' => ?_⟩
  · rw [List.length_map, List.length_range, hp.nbeams]
  · have hb : b < n * 2 := by
      by_contra hge
      rw [List.getElem?_eq_none (by rw [List.length_map, List.length_range]; omega)] at hth
      cases hth
    rw [List.getElem?_map, List.getElem?_range hb] at hth
    obtain rfl := Option.some.inj hth
    exact hp.placed hw hc cl hb _
  · obtain ⟨hi, hpool, -⟩ := hp.inputStreams hc hx
    have hcpu : i / k < 2 := Nat.div_lt_of_lt_mul hi
    refine ⟨_, hp.assembler i hi, List.cons_ne_nil _ _, fun core hcore => ?_⟩
    simp only [List.mem_cons, List.not_mem_nil, or_false] at hcore
    rw [hpool]
    generalize i / k = icpu at hcore hcpu ⊢
    unfold cpuOf physicalCore
    omega
  · obtain ⟨i, hi⟩ := List.mem_iff_getElem?.1 hx
    obtain ⟨hi, hpool, -⟩ := hp.inputStreams hc hi
    have hcpu : i / k < Config.coresOnCpu.length := Nat.div_lt_of_lt_mul hi
    rw [hpool, Int.toNat_natCast, hp.coresOnCpu]
    exact ⟨_, List.getElem?_eq_getElem hcpu, fun core => mem_coresOnCpu (List.getElem?_eq_getElem hcpu)⟩
  · rw [hp.output, hp.network] at hcore
    rcases hcore with hcore | hcore
    · simp only [List.mem_cons, List.not_mem_nil, or_false] at hcore
      unfold cpuOf physicalCore
      omega
    · exact ((@mem_coresOnCpu 0 _ _ rfl).1 hcore).2.2
  · obtain ⟨b, hb, rfl⟩ := List.mem_map.1 hth
    have hb : b < n * 2 := List.mem_range.1 hb
    have hn : 0 < n := by omega
    have hcore : core ∈ q.dedispersionCores.getD b [] := hcore
    rw [List.getD_eq_getElem?_getD, hp.dedispersion b hb, Option.getD_some] at hcore
    have hlow := (hp.cpuOf_cores (b / n) (Nat.div_lt_of_lt_mul hb) (b % n) (Nat.mod_lt b hn) core hcore).2
    have hhigh : 8 ≤ physicalCore core' % 10 := by
      rcases hcore' with hcore' | ⟨cores', hcores', hcore'⟩
      · rw [hp.output] at hcore'
        simp only [List.mem_cons, List.not_mem_nil, or_false] at hcore'
        unfold physicalCore
        omega
      · obtain ⟨i, hi⟩ := List.mem_iff_getElem?.1 hcores'
        have hik : i < k * 2 := by
          by_contra hge
          rw [List.getElem?_eq_none (by rw [hp.length_assembler]; omega)] at hi
          cases hi
        have hcpu : i / k < 2 := Nat.div_lt_of_lt_mul hik
        rw [hp.assembler i hik] at hi
        obtain rfl := Option.some.inj hi
        simp only [List.mem_cons, List.not_mem_nil, or_false] at hcore'
        generalize i / k = icpu at hcore' hcpu
        unfold physicalCore
        omega
    intro heq
    omega

end Production

/-- **Every thread is where its data is**: in a server with more than four beams, a beam's thread and its L1b process, the
assembler of the beam's stream and the memory that it assembles to are on one cpu, and neither assemblers nor writers
share a core with the threads of the beams. -/
theorem server_placement {env : Env} {numCores : Int} {opts : Options} {p : Paramfile} {t : Tree} {s : L1Server}
    (h : (l1Server env numCores opts p t).1 = .ok s) (hmany : 4 < s.config.nbeams) (cl : CommandLine) :
    ∃ q ths, pinning numCores s.config = .ok q ∧
      spawnDedispersionThreads s.config q (spawnL1bSubprocesses cl s.config q) = .ok ths ∧ Placement s q ths := by
  have hw := l1Server_wired h
  obtain ⟨ncpus, nstreamsPerCpu, hc⟩ := l1Server_perCpu h
  obtain ⟨q, hq, hncpus, hprod⟩ := production_of_initServer (l1Server_eq_ok.1 h).2.1 hmany
  have htwo : ncpus = 2 := by
    have heq := hc.ncpus_eq
    omega
  subst htwo
  have hperCpu : ∀ {n k : Nat} {cores : Nat → Nat → List Int}, Production s.config q n k cores → s.PerCpu 2 k :=
    fun {n k cores} hp => by
      have heq : 2 * nstreamsPerCpu = k * 2 := by exact_mod_cast hc.nstreams.symm.trans hp.nstreams
      obtain rfl : nstreamsPerCpu = k := by omega
      exact hc
  rcases hprod with hp | hp
  · obtain ⟨ths, hths, hplaced⟩ := hp.placement hw (hperCpu hp) cl
    exact ⟨q, ths, hq, hths, hplaced⟩
  · obtain ⟨ths, hths, hplaced⟩ := hp.placement hw (hperCpu hp) cl
    exact ⟨q, ths, hq, hths, hplaced⟩

theorem server_placement_eight : ∃ q ths, pinning 20 eightBeamsServer.config = .ok q ∧
    spawnDedispersionThreads eightBeamsServer.config q (spawnL1bSubprocesses .init eightBeamsServer.config q) = .ok ths ∧
    Placement eightBeamsServer q ths :=
  server_placement (toOption_eq_some.1 (Option.some_get _).symm) (by decide +kernel) .init

/-! ## Which threads share a core -/

def Pinning.coresOf (q : Pinning) (b : Nat) : List Int := q.dedispersionCores.getD b []

/-- A thread that can run on one hyperthread of a core can run on the other one. -/
def Pinning.BothHyperthreads (q : Pinning) (b : Nat) : Prop :=
  ∀ core ∈ q.coresOf b, ∀ core', 0 ≤ core' → core' < 40 → physicalCore core' = physicalCore core → core' ∈ q.coresOf b

def Pinning.Shares (q : Pinning) (b b' : Nat) : Prop :=
  ∃ core ∈ q.coresOf b, ∃ core' ∈ q.coresOf b', physicalCore core = physicalCore core'

section
variable {c : L1Config} {q : Pinning}

theorem Production.coresOf {n k : Nat} {cores : Nat → Nat → List Int} (hp : Production c q n k cores) {b : Nat}
    (hb : b < n * 2) : q.coresOf b = cores (b / n) (b % n) := by
  rw [Pinning.coresOf, List.getD_eq_getElem?_getD, hp.dedispersion b hb, Option.getD_some]

theorem bothHyperthreads16 (hp : Production c q 8 2 cores16) {b : Nat} (hb : b < 16) : q.BothHyperthreads b := by
  intro core hcore core' h0 h40 heq
  rw [hp.coresOf hb] at hcore ⊢
  simp only [cores16, List.mem_cons, List.not_mem_nil, or_false] at hcore ⊢
  unfold physicalCore at heq
  omega

theorem not_shares16 (hp : Production c q 8 2 cores16) {b b' : Nat} (hlt : b < b') (hb' : b' < 16) : ¬ q.Shares b b' := by
  rintro ⟨core, hcore, core', hcore', heq⟩
  rw [hp.coresOf (by omega)] at hcore hcore'
  simp only [cores16, List.mem_cons, List.not_mem_nil, or_false] at hcore hcore'
  unfold physicalCore at heq
  omega

/-- The second hyperthreads are those of the cores `j` and `j + 1`, the first ones those of `2 * j` and `2 * j + 1`. -/
theorem bothHyperthreads8_iff (hp : Production c q 4 1 cores8) {b : Nat} (hb : b < 8) :
    q.BothHyperthreads b ↔ b % 4 = 0 := by
  unfold Pinning.BothHyperthreads
  rw [hp.coresOf hb]
  simp only [cores8, List.mem_cons, List.not_mem_nil, or_false, physicalCore]
  constructor
  · intro h
    have hsecond := h (10 * (b / 4 : Nat) + 2 * (b % 4 : Nat) + 1) (by omega)
      (10 * (b / 4 : Nat) + 2 * (b % 4 : Nat) + 21) (by omega) (by omega) (by omega)
    omega
  · intro hj core hcore core' h0 h40 heq
    omega

theorem shares8_iff (hp : Production c q 4 1 cores8) {b b' : Nat} (hlt : b < b') (hb' : b' < 8) :
    q.Shares b b' ↔ b / 4 = b' / 4 ∧ (b' = b + 1 ∨ b % 4 = 1 ∧ b' % 4 = 3) := by
  unfold Pinning.Shares
  rw [hp.coresOf (by omega), hp.coresOf hb']
  simp only [cores8, List.mem_cons, List.not_mem_nil, or_false, physicalCore]
  constructor
  · rintro ⟨core, hcore, core', hcore', heq⟩
    omega
  · rintro ⟨hcpu, rfl | ⟨h1, h3⟩⟩
    · refine ⟨10 * (b / 4 : Nat) + (b % 4 : Nat) + 21, by omega, 10 * (b / 4 : Nat) + (b % 4 : Nat) + 21, by omega, rfl⟩
    · exact ⟨10 * (b / 4 : Nat) + 3, by omega, 10 * (b / 4 : Nat) + 23, by omega, by omega⟩

end

/-- **Which beams' threads share a physical core**: with 16 beams none, and each has both hyperthreads of its own; with 8
beams those of neighbours on a cpu and of its second and last beam, and only the first has both hyperthreads of all its
cores. -/
theorem sharing {env : Env} {numCores : Int} {opts : Options} {p : Paramfile} {t : Tree} {s : L1Server}
    (h : (l1Server env numCores opts p t).1 = .ok s) (hmany : 4 < s.config.nbeams) {q : Pinning}
    (hq : pinning numCores s.config = .ok q) :
    (∀ b : Nat, b < s.config.nbeams → (q.BothHyperthreads b ↔ s.config.nbeams = 16 ∨ b % 4 = 0)) ∧
    ∀ b b' : Nat, b < b' → b' < s.config.nbeams →
      (q.Shares b b' ↔ s.config.nbeams = 8 ∧ b / 4 = b' / 4 ∧ (b' = b + 1 ∨ b % 4 = 1 ∧ b' % 4 = 3)) := by
  obtain ⟨q', hq', -, hprod⟩ := production_of_initServer (l1Server_eq_ok.1 h).2.1 hmany
  obtain rfl : q' = q := Except.ok.inj (hq'.symm.trans hq)
  rcases hprod with hp | hp
  · have hbeams : s.config.nbeams = 16 := hp.nbeams
    rw [hbeams]
    refine ⟨fun b hb => ?_, fun b b' hlt hb' => ?_⟩
    · exact iff_of_true (bothHyperthreads16 hp (by omega)) (.inl rfl)
    · exact iff_of_false (not_shares16 hp hlt (by omega)) (fun h8 => by omega)
  · have hbeams : s.config.nbeams = 8 := hp.nbeams
    rw [hbeams]
    refine ⟨fun b hb => ?_, fun b b' hlt hb' => ?_⟩
    · rw [bothHyperthreads8_iff hp (by omega)]
      omega
    · rw [shares8_iff hp hlt (by omega)]
      omega

theorem sharing_eight : ∃ q, pinning 20 eightBeamsServer.config = .ok q ∧ q.Shares 1 3 ∧ ¬ q.Shares 0 2 := by
  have h : (l1Server plainEnv 20 toyOptions eightBeams localDisk).1 = .ok eightBeamsServer :=
    toOption_eq_some.1 (Option.some_get _).symm
  have hbeams : eightBeamsServer.config.nbeams = 8 := by decide +kernel
  obtain ⟨q, hq, -⟩ := production8 hbeams (by decide +kernel)
  have hshares := (sharing h (by omega) hq).2
  refine ⟨q, hq, (hshares 1 3 (by omega) (by omega)).2 ⟨hbeams, rfl, .inr ⟨rfl, rfl⟩⟩, fun h02 => ?_⟩
  have := (hshares 0 2 (by omega) (by omega)).1 h02
  omega

end Config
end FrbL1
