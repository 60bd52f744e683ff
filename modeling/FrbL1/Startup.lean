import FrbL1.Run
import FrbL1.MaskCounters
/-!
# Startup — from the input streams to the RPC servers

`main` and the dedispersion threads as a step relation.  `main` makes the Prometheus servers, spawns the threads, waits
in `make_rpc_servers` for all dedispersers and makes the RPC servers.  A thread puts its mask counters into its
stream's `mask_stats_map` and publishes its objects with `set_bonsai`, under `bonsai_dedisp_mutex`.  A toy thread does
neither, so that `main` waits for ever (`servers_start`).
-/
namespace FrbL1
namespace Startup

open Config (InputStream L1Server toOption_eq_some)
open Trans (run Reachable)

/-- What a dedispersion thread makes for itself.  An object of its RFI chain is known by its place. -/
inductive Made
  | dedisperser
  | stream
  | transform (place : Nat)
  | ringbuf (place : Nat)
  deriving DecidableEq

structure Obj where
  thread : Nat
  made   : Made
  deriving DecidableEq

/-- The entries that were put, the newest first: the map has the newest of each key. -/
abbrev MaskStatsMap := List ((Int × List Char) × Obj)

def MaskStatsMap.put (m : MaskStatsMap) (beamId : Int) («where» : List Char) (ringbuf : Obj) : MaskStatsMap :=
  ((beamId, «where»), ringbuf) :: m

/-- Where `main` is. -/
inductive MainPc
  | prometheus (istream : Nat)     -- make_prometheus_servers
  | spawn (ibeam : Nat)            -- spawn_dedispersion_threads
  | acquire                        -- make_rpc_servers: the wait loop
  | count (i gotn : Nat)
  | sleep
  | serve (istream : Nat)          -- after the wait loop
  | join (ibeam : Nat)             -- join_all_threads
  deriving DecidableEq

inductive Pc
  | unspawned
  | start
  | put (i : Nat)                  -- _init_mask_counters
  | acquire                        -- set_bonsai
  | setDedisperser
  | setPre
  | setPost
  | release
  | running                        -- the pipeline runs, or the loop of a toy thread
  | returned
  deriving DecidableEq

inductive Party
  | main
  | thread (ibeam : Nat)
  deriving DecidableEq

structure RpcServer where
  stream     : InputStream
  maskStats  : Nat
  bonsais    : List (Option Obj)
  rpcAddress : List Char
  latencies  : List (Int × String × Option Obj)

structure State where
  main         : MainPc
  threads      : Nat → Pc
  mutex        : Option Party
  terminated   : Bool
  maskStats    : Nat → MaskStatsMap
  dedispersers : Nat → Option Obj
  latencyPre   : Nat → Option Obj
  latencyPost  : Nat → Option Obj
  rpcServers   : List RpcServer

def State.init : State where
  main         := .prometheus 0
  threads      := fun _ => .unspawned
  mutex        := none
  terminated   := false
  maskStats    := fun _ => []
  dedispersers := fun _ => none
  latencyPre   := fun _ => none
  latencyPost  := fun _ => none
  rpcServers   := []

/-- A server with its input streams, and what `visit_pipeline` shows of its RFI chain: the chain itself at least. -/
structure Setup where
  server  : L1Server
  chain   : List PipelineObject
  ne_nil  : chain ≠ []

namespace Setup

variable (S : Setup)

def toy : Bool := S.server.config.tflag
def nbeams : Nat := S.server.config.nbeams.toNat
def nstreams : Nat := S.server.config.nstreams.toNat
def nbeamsPerStream : Nat := S.server.config.nbeamsPerStream

/-- `config.beam_ids[ibeam]` -/
def beamId (ibeam : Nat) : Int := S.server.config.beamIds.getD ibeam 0

def istream (ibeam : Nat) : Nat := ibeam / S.nbeamsPerStream

def counters (ibeam : Nat) : Except Config.Stop (List Counter) :=
  initMaskCounters S.server.config (S.istream ibeam) S.chain (S.beamId ibeam)

/-- What a thread publishes: its dedisperser, and its network stream and the last object of its RFI chain. -/
def bonsai (ibeam : Nat) : Obj := ⟨ibeam, .dedisperser⟩
def latency1 (ibeam : Nat) : Obj := ⟨ibeam, .stream⟩
def latency2 (ibeam : Nat) : Obj := ⟨ibeam, .transform (S.chain.length - 1)⟩

/-- A server of `make_rpc_servers`, from what has been published. -/
def makeRpcServer (s : State) (istream : Nat) : RpcServer where
  stream     := S.server.inputStreams.getD istream default
  maskStats  := istream
  bonsais    := (List.range S.nbeamsPerStream).map (fun ib => s.dedispersers (istream * S.nbeamsPerStream + ib))
  rpcAddress := S.server.config.rpcAddress.getD istream []
  latencies  := (List.range S.nbeamsPerStream).flatMap (fun ib =>
    let ibeam := istream * S.nbeamsPerStream + ib
    [(S.beamId ibeam, "before_rfi", s.latencyPre ibeam), (S.beamId ibeam, "after_rfi", s.latencyPost ibeam)])

end Setup

def State.goto (s : State) (ibeam : Nat) (pc : Pc) : State := { s with threads := Function.update s.threads ibeam pc }

/-- The next step of a dedispersion thread, unless it throws. -/
def threadStep (S : Setup) (s : State) (ibeam : Nat) : Option State :=
  match s.threads ibeam with
  | .unspawned => none
  | .start =>
    if S.toy then some (s.goto ibeam .running)
    else match S.counters ibeam with
      | .ok _    => some (s.goto ibeam (.put 0))
      | .error _ => none
  | .put i =>
    match (S.counters ibeam).toOption.bind (·[i]?) with
    | some c =>
      let m := (s.maskStats (S.istream ibeam)).put (S.beamId ibeam) c.where ⟨ibeam, .ringbuf c.place⟩
      some { s.goto ibeam (.put (i + 1)) with maskStats := Function.update s.maskStats (S.istream ibeam) m }
    | none => some (s.goto ibeam .acquire)
  | .acquire =>
    if s.mutex = none then some { s.goto ibeam .setDedisperser with mutex := some (.thread ibeam) } else none
  | .setDedisperser => some { s.goto ibeam .setPre with
      dedispersers := Function.update s.dedispersers ibeam (some (Setup.bonsai ibeam)) }
  | .setPre => some { s.goto ibeam .setPost with
      latencyPre := Function.update s.latencyPre ibeam (some (Setup.latency1 ibeam)) }
  | .setPost => some { s.goto ibeam .release with
      latencyPost := Function.update s.latencyPost ibeam (some (S.latency2 ibeam)) }
  | .release => some { s.goto ibeam .running with mutex := none }
  | .running => some (s.goto ibeam .returned)
  | .returned => none

def mainStep (S : Setup) (s : State) : Option State :=
  match s.main with
  | .prometheus i => some { s with main := if i < S.nstreams then .prometheus (i + 1) else .spawn 0 }
  | .spawn i => if i < S.nbeams then some { s.goto i .start with main := .spawn (i + 1) } else some { s with main := .acquire }
  | .acquire => if s.mutex = none then some { s with mutex := some .main, main := .count 0 0 } else none
  | .count i gotn =>
    if i < S.nbeams then some { s with main := .count (i + 1) (if (s.dedispersers i).isSome then gotn + 1 else gotn) }
    else some { s with mutex := none, main := if gotn = S.nbeams then .serve 0 else .sleep }
  | .sleep => some { s with main := .acquire }
  | .serve i =>
    if i < S.nstreams then some { s with rpcServers := s.rpcServers ++ [S.makeRpcServer s i], main := .serve (i + 1) }
    else some { s with main := .join 0 }
  | .join i => if i < S.nbeams ∧ s.threads i = .returned then some { s with main := .join (i + 1) } else none

inductive Action
  | main
  | thread (ibeam : Nat)
  | throw (ibeam : Nat)

/-- An exception that leaves a thread ends the process. -/
def step (S : Setup) (s : State) (a : Action) : Option State :=
  if s.terminated then none
  else match a with
    | .main         => mainStep S s
    | .thread ibeam => threadStep S s ibeam
    | .throw ibeam  =>
      if s.threads ibeam = .unspawned ∨ s.threads ibeam = .returned then none else some { s with terminated := true }

/-! ## What a thread does -/

inductive ThreadStep (S : Setup) (s : State) (i : Nat) : State → Prop
  | toy (hpc : s.threads i = .start) (ht : S.toy = true) : ThreadStep S s i (s.goto i .running)
  | init (hpc : s.threads i = .start) (ht : S.toy = false) {l : List Counter} (hl : S.counters i = .ok l) :
    ThreadStep S s i (s.goto i (.put 0))
  | put {k : Nat} (hpc : s.threads i = .put k) {l : List Counter} (hl : S.counters i = .ok l) {c : Counter}
    (hc : l[k]? = some c) : ThreadStep S s i { s.goto i (.put (k + 1)) with
      maskStats := Function.update s.maskStats (S.istream i)
        ((s.maskStats (S.istream i)).put (S.beamId i) c.where ⟨i, .ringbuf c.place⟩) }
  | putAll {k : Nat} (hpc : s.threads i = .put k) (hk : ∀ l, S.counters i = .ok l → l.length ≤ k) :
    ThreadStep S s i (s.goto i .acquire)
  | acquire (hpc : s.threads i = .acquire) (hm : s.mutex = none) :
    ThreadStep S s i { s.goto i .setDedisperser with mutex := some (.thread i) }
  | setDedisperser (hpc : s.threads i = .setDedisperser) : ThreadStep S s i { s.goto i .setPre with
      dedispersers := Function.update s.dedispersers i (some (Setup.bonsai i)) }
  | setPre (hpc : s.threads i = .setPre) : ThreadStep S s i { s.goto i .setPost with
      latencyPre := Function.update s.latencyPre i (some (Setup.latency1 i)) }
  | setPost (hpc : s.threads i = .setPost) : ThreadStep S s i { s.goto i .release with
      latencyPost := Function.update s.latencyPost i (some (S.latency2 i)) }
  | release (hpc : s.threads i = .release) : ThreadStep S s i { s.goto i .running with mutex := none }
  | run (hpc : s.threads i = .running) : ThreadStep S s i (s.goto i .returned)

theorem threadStep_cases {S : Setup} {s s' : State} {i : Nat} (h : threadStep S s i = some s') :
    ThreadStep S s i s' := by
  unfold threadStep at h
  split at h
  · cases h
  · rename_i hpc
    split at h
    · rename_i ht
      exact Option.some.inj h ▸ .toy hpc ht
    · rename_i ht
      split at h
      · rename_i l hl
        exact Option.some.inj h ▸ .init hpc (by simpa using ht) hl
      · cases h
  · rename_i k hpc
    split at h
    · rename_i c hc
      obtain ⟨l, hl, hc⟩ := Option.bind_eq_some_iff.1 hc
      exact Option.some.inj h ▸ .put hpc (toOption_eq_some.1 hl) hc
    · rename_i hc
      refine Option.some.inj h ▸ .putAll hpc (fun l hl => ?_)
      rw [hl] at hc
      exact List.getElem?_eq_none_iff.1 hc
  · rename_i hpc
    split at h
    · rename_i hm
      exact Option.some.inj h ▸ .acquire hpc hm
    · cases h
  · rename_i hpc
    exact Option.some.inj h ▸ .setDedisperser hpc
  · rename_i hpc
    exact Option.some.inj h ▸ .setPre hpc
  · rename_i hpc
    exact Option.some.inj h ▸ .setPost hpc
  · rename_i hpc
    exact Option.some.inj h ▸ .release hpc
  · rename_i hpc
    exact Option.some.inj h ▸ .run hpc
  · cases h

end Startup
end FrbL1
