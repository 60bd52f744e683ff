import FrbL1.Fallible
import FrbL1.StartupGate
/-!
# FpgaCounts — which thread a beam's FPGA counts come from

The reply to `get_max_fpga_counts` has entries that are labelled with a beam id and computed from the objects that the
dedispersion threads have published.  The `i`-th entry of each label belongs to the `i`-th beam of the server's stream
and comes from the thread of that beam (`beams_agree`); by the id alone a beam is told only if the ids are distinct.
-/
namespace FrbL1
namespace Startup

open Config
open Fallible (mapM_eq_some)
open Posix (Tree)
open Slices (slice flatMap_slice_eq getElem?_slice getElem?_slice_div length_slice)
open Trans (run Reachable)

/-! ## The request -/

/-- What the objects of a server say when the request is handled. -/
structure Readings where
  packetMaxFpgaSeen : Nat
  flushed           : Nat → Nat      -- get_max_fpga_count_seen
  retrieved         : Nat → Nat
  firstFpgaCount    : Int → Nat      -- get_first_fpga_count
  posLo             : Obj → Int
  nchunksProcessed  : Obj → Int
  ntChunk           : Obj → Int

structure FpgaCountsSeen where
  «where»     : String
  beam        : Int
  maxFpgaSeen : Nat
  deriving DecidableEq

def mulInt (a b : Int) : Int := (a * b).bmod (2 ^ 32)

def toUint64 (n : Int) : Nat := (n % 2 ^ 64).toNat

def latencyEntry (R : Readings) (fpgaCountsPerSample : Int) («where» : String) (beam : Int) (late : Obj) :
    FpgaCountsSeen where
  «where»     := «where»
  beam        := beam
  maxFpgaSeen := toUint64 (R.posLo late * fpgaCountsPerSample + R.firstFpgaCount beam)

def bonsaiEntry (R : Readings) (fpgaCountsPerSample : Int) (beam : Int) (bonsai : Obj) : FpgaCountsSeen where
  «where»     := "bonsai"
  beam        := beam
  maxFpgaSeen := toUint64 (mulInt (mulInt (R.nchunksProcessed bonsai) (R.ntChunk bonsai)) fpgaCountsPerSample +
    R.firstFpgaCount beam)

/-- The reply; `none` where a null pointer is dereferenced, or a vector is read out of bounds. -/
def getMaxFpgaCounts (R : Readings) (server : RpcServer) : Option (List FpgaCountsSeen) := do
  let ini := server.stream.iniParams
  let chunks := (List.range ini.beamIds.length).flatMap (fun i =>
    [⟨"chunk_flushed", ini.beamIds.getD i 0, R.flushed i⟩, ⟨"chunk_retrieved", ini.beamIds.getD i 0, R.retrieved i⟩])
  let latencies ← server.latencies.mapM (fun (beam, «where», late) =>
    late.map (latencyEntry R ini.fpgaCountsPerSample «where» beam))
  let bonsais ← (List.range server.bonsais.length).mapM (fun i => do
    let bonsai ← server.bonsais.getD i none
    let beam ← ini.beamIds[i]?
    return bonsaiEntry R ini.fpgaCountsPerSample beam bonsai)
  return ⟨"packet_stream", -1, R.packetMaxFpgaSeen⟩ :: chunks ++ latencies ++ bonsais

inductive Stage
  | beforeRfi
  | afterRfi
  | bonsai

def Stage.label : Stage → String
  | .beforeRfi => "before_rfi"
  | .afterRfi  => "after_rfi"
  | .bonsai    => "bonsai"

def Setup.entry (S : Setup) (R : Readings) (fpgaCountsPerSample : Int) (stage : Stage) (beam : Int) (ibeam : Nat) :
    FpgaCountsSeen :=
  match stage with
  | .beforeRfi => latencyEntry R fpgaCountsPerSample "before_rfi" beam (Setup.latency1 ibeam)
  | .afterRfi  => latencyEntry R fpgaCountsPerSample "after_rfi" beam (S.latency2 ibeam)
  | .bonsai    => bonsaiEntry R fpgaCountsPerSample beam (Setup.bonsai ibeam)

/-! ## The reply of a server -/

theorem mapM_flatMap_eq_some {α β γ : Type} {f : β → Option γ} {g : α → List β} {h : α → List γ} : ∀ {l : List α},
    (∀ a ∈ l, (g a).mapM f = some (h a)) → (l.flatMap g).mapM f = some (l.flatMap h)
  | [], _ => rfl
  | a :: l, hfg => by
    rw [List.flatMap_cons, List.mapM_append, hfg a (.head _), mapM_flatMap_eq_some (fun b hb => hfg b (.tail _ hb))]
    rfl

theorem mapIdx_eq_map_range {α : Type} (f : Nat → Int → α) (l : List Int) :
    l.mapIdx f = (List.range l.length).map (fun i => f i (l.getD i 0)) := by
  refine List.ext_getElem? (fun i => ?_)
  rw [List.getElem?_mapIdx, List.getElem?_map]
  by_cases hi : i < l.length
  · simp [hi]
  · simp [hi]

section
variable (S : Setup) (R : Readings) (istream : Nat) (f : Int)

/-- The entries of a stream's threads, the two of the latency monitors for one beam after the other. -/
def Setup.latencyEntries : List FpgaCountsSeen :=
  (List.range S.nbeamsPerStream).flatMap (fun ib =>
    let ibeam := istream * S.nbeamsPerStream + ib
    [S.entry R f .beforeRfi (S.beamId ibeam) ibeam, S.entry R f .afterRfi (S.beamId ibeam) ibeam])

def Setup.stageEntries (stage : Stage) : List FpgaCountsSeen :=
  (List.range S.nbeamsPerStream).map (fun ib =>
    let ibeam := istream * S.nbeamsPerStream + ib
    S.entry R f stage (S.beamId ibeam) ibeam)

theorem mapM_latencies : (S.rpcServer istream).latencies.mapM (fun (beam, «where», late) =>
    late.map (latencyEntry R f «where» beam)) = some (S.latencyEntries R istream f) :=
  mapM_flatMap_eq_some (fun _ _ => rfl)

theorem mapM_bonsais {ids : List Int} (hids : ∀ ib < S.nbeamsPerStream,
      ids[ib]? = some (S.beamId (istream * S.nbeamsPerStream + ib))) :
    (List.range (S.rpcServer istream).bonsais.length).mapM (fun i => do
      let bonsai ← (S.rpcServer istream).bonsais.getD i none
      let beam ← ids[i]?
      return bonsaiEntry R f beam bonsai) = some (S.stageEntries R istream f .bonsai) := by
  have hlen : (S.rpcServer istream).bonsais.length = S.nbeamsPerStream := by simp [Setup.rpcServer]
  rw [hlen]
  refine mapM_eq_some (fun ib hib => ?_)
  have hlt := List.mem_range.1 hib
  rw [hids ib hlt]
  simp [Setup.rpcServer, hlt, Setup.entry]

theorem where_entry (stage : Stage) (beam : Int) (ibeam : Nat) : (S.entry R f stage beam ibeam).where = stage.label := by
  cases stage <;> rfl

theorem filter_stageEntries (stage stage' : Stage) :
    (S.stageEntries R istream f stage).filter (·.where = stage'.label) =
      if stage.label = stage'.label then S.stageEntries R istream f stage else [] := by
  unfold Setup.stageEntries
  split
  · rename_i hlabel
    refine List.filter_eq_self.2 (fun e he => ?_)
    obtain ⟨ib, -, rfl⟩ := List.mem_map.1 he
    simp [where_entry, hlabel]
  · rename_i hlabel
    refine List.filter_eq_nil_iff.2 (fun e he => ?_)
    obtain ⟨ib, -, rfl⟩ := List.mem_map.1 he
    simp [where_entry, hlabel]

theorem filter_latencyEntries (stage : Stage) : (S.latencyEntries R istream f).filter (·.where = stage.label) =
    if stage.label = "bonsai" then [] else S.stageEntries R istream f stage := by
  unfold Setup.latencyEntries Setup.stageEntries
  rw [List.filter_flatMap]
  cases stage with
  | beforeRfi | afterRfi =>
    rw [if_neg (by decide), List.map_eq_flatMap]
    rfl
  | bonsai =>
    rw [if_pos (show Stage.bonsai.label = "bonsai" from rfl)]
    exact List.flatMap_eq_nil_iff.2 (fun _ _ => rfl)

def chunkEntries (ids : List Int) : List FpgaCountsSeen := (List.range ids.length).flatMap (fun i =>
  [⟨"chunk_flushed", ids.getD i 0, R.flushed i⟩, ⟨"chunk_retrieved", ids.getD i 0, R.retrieved i⟩])

theorem filter_chunkEntries (ids : List Int) (stage : Stage) :
    (chunkEntries R ids).filter (·.where = stage.label) = [] := by
  unfold chunkEntries
  rw [List.filter_flatMap]
  refine List.flatMap_eq_nil_iff.2 (fun i _ => ?_)
  cases stage <;> rfl

def Setup.reply (x : InputStream) : List FpgaCountsSeen :=
  ⟨"packet_stream", -1, R.packetMaxFpgaSeen⟩ :: chunkEntries R x.iniParams.beamIds ++
    S.latencyEntries R istream x.iniParams.fpgaCountsPerSample ++
    S.stageEntries R istream x.iniParams.fpgaCountsPerSample .bonsai

theorem getMaxFpgaCounts_rpcServer {x : InputStream} (hx : S.server.inputStreams[istream]? = some x)
    (hids : ∀ ib < S.nbeamsPerStream, x.iniParams.beamIds[ib]? = some (S.beamId (istream * S.nbeamsPerStream + ib))) :
    getMaxFpgaCounts R (S.rpcServer istream) = some (S.reply R istream x) := by
  have hstream : (S.rpcServer istream).stream = x := by
    simp [Setup.rpcServer, List.getD_eq_getElem?_getD, hx]
  unfold getMaxFpgaCounts
  simp only [mapM_latencies, hstream, mapM_bonsais S R istream _ hids]
  rfl

def labelled (reply : List FpgaCountsSeen) (stage : Stage) : List FpgaCountsSeen := reply.filter (·.where = stage.label)

/-- **For each stage**, the entry `i` is that of the beam `i` and of its thread. -/
theorem labelled_reply {x : InputStream} (hlen : x.iniParams.beamIds.length = S.nbeamsPerStream)
    (hids : ∀ ib < S.nbeamsPerStream, x.iniParams.beamIds[ib]? = some (S.beamId (istream * S.nbeamsPerStream + ib)))
    (stage : Stage) : labelled (S.reply R istream x) stage = x.iniParams.beamIds.mapIdx (fun i beam =>
      S.entry R x.iniParams.fpgaCountsPerSample stage beam (istream * S.nbeamsPerStream + i)) := by
  have hstage : S.stageEntries R istream x.iniParams.fpgaCountsPerSample stage =
      (List.range S.nbeamsPerStream).map (fun i => S.entry R x.iniParams.fpgaCountsPerSample stage
        (x.iniParams.beamIds.getD i 0) (istream * S.nbeamsPerStream + i)) := by
    refine List.map_congr_left (fun ib hib => ?_)
    rw [List.getD_eq_getElem?_getD, hids ib (List.mem_range.1 hib)]
    rfl
  unfold labelled Setup.reply
  rw [List.filter_append, List.filter_append, List.filter_cons, filter_chunkEntries, filter_latencyEntries,
    filter_stageEntries, mapIdx_eq_map_range, hlen, ← hstage]
  cases stage <;> simp [Stage.label]

end

theorem filter_mapIdx_beam {b : Int} : ∀ {ids : List Int} {i : Nat} {g : Nat → Int → FpgaCountsSeen},
    (∀ i c, (g i c).beam = c) → ids.Nodup → ids[i]? = some b → (ids.mapIdx g).filter (·.beam = b) = [g i b]
  | [],      _,     _, _,  _,   hb => nomatch hb
  | c :: cs, 0,     g, hg, hnd, hb => by
    obtain rfl : c = b := Option.some.inj hb
    have hrest : (cs.mapIdx (fun i => g (i + 1))).filter (·.beam = c) = [] := by
      refine List.filter_eq_nil_iff.2 (fun e he => ?_)
      obtain ⟨i, hi, rfl⟩ := List.mem_mapIdx.1 he
      simp only [hg, decide_eq_true_eq]
      exact fun hc => (List.nodup_cons.1 hnd).1 (hc ▸ List.getElem_mem hi)
    rw [List.mapIdx_cons, List.filter_cons, if_pos (by simp [hg]), hrest]
  | c :: cs, i + 1, g, hg, hnd, hb => by
    have hcb : c ≠ b := fun hc => (List.nodup_cons.1 hnd).1 (hc ▸ List.mem_of_getElem? hb)
    rw [List.mapIdx_cons, List.filter_cons, if_neg (by simpa [hg] using hcb)]
    exact filter_mapIdx_beam (g := fun i => g (i + 1)) (fun i c => hg (i + 1) c) (List.nodup_cons.1 hnd).2 hb

/-! ## All of it -/

/-- What the reply of the server of stream `x` says. -/
structure Attributed (S : Setup) (R : Readings) (istream : Nat) (x : InputStream) (reply : List FpgaCountsSeen) :
    Prop where
  labelled : ∀ stage, labelled reply stage = x.iniParams.beamIds.mapIdx (fun i beam =>
    S.entry R x.iniParams.fpgaCountsPerSample stage beam (istream * S.nbeamsPerStream + i))
  unique   : x.iniParams.beamIds.Nodup → ∀ i beam, x.iniParams.beamIds[i]? = some beam → ∀ stage,
    (Startup.labelled reply stage).filter (·.beam = beam) =
      [S.entry R x.iniParams.fpgaCountsPerSample stage beam (istream * S.nbeamsPerStream + i)]

theorem getElem?_beamIds {S : Setup} (hw : S.server.Wired) {ibeam : Nat} (hi : ibeam < S.nstreams * S.nbeamsPerStream) :
    S.server.config.beamIds[ibeam]? = some (S.beamId ibeam) := by
  have hlen : ibeam < S.server.config.beamIds.length := by
    rw [hw.length_beamIds]
    exact hi
  unfold Setup.beamId
  simp [hlen]

theorem attributed_reply {S : Setup} (hw : S.server.Wired) (R : Readings) {istream : Nat} (hi : istream < S.nstreams) :
    ∃ x reply, S.server.inputStreams[istream]? = some x ∧ getMaxFpgaCounts R (S.rpcServer istream) = some reply ∧
      Attributed S R istream x reply := by
  obtain ⟨x, hx, -, -, hbeams⟩ := hw.getElem?_inputStreams hi
  have hlen : x.iniParams.beamIds.length = S.nbeamsPerStream := by
    rw [hbeams]
    exact length_slice hw.length_beamIds hi
  have hids : ∀ ib < S.nbeamsPerStream, x.iniParams.beamIds[ib]? = some (S.beamId (istream * S.nbeamsPerStream + ib)) :=
    fun ib hib => by
      have hlt : istream * S.nbeamsPerStream + ib < S.nstreams * S.nbeamsPerStream := Blocks.row_lt hi hib
      rw [hbeams]
      exact (getElem?_slice _ hib).trans (getElem?_beamIds hw hlt)
  have hlabelled := labelled_reply S R istream hlen hids
  refine ⟨x, S.reply R istream x, hx, getMaxFpgaCounts_rpcServer S R istream hx hids, hlabelled, ?_⟩
  intro hnd i beam hb stage
  rw [hlabelled]
  exact filter_mapIdx_beam (fun i c => by cases stage <;> rfl) hnd hb

/-- The thread `ibeam` belongs to the stream `ibeam / nbeams_per_stream`, which has its beam. -/
theorem beamId_thread {S : Setup} (hw : S.server.Wired) {ibeam : Nat} (hi : ibeam < S.nstreams * S.nbeamsPerStream) :
    ∃ x, S.server.inputStreams[S.istream ibeam]? = some x ∧
      x.iniParams.beamIds[ibeam % S.nbeamsPerStream]? = some (S.beamId ibeam) := by
  have hlt : S.istream ibeam < S.nstreams := Nat.div_lt_of_lt_mul (by rwa [Nat.mul_comm])
  obtain ⟨x, hx, -, -, hbeams⟩ := hw.getElem?_inputStreams hlt
  refine ⟨x, hx, ?_⟩
  rw [hbeams]
  exact (getElem?_slice_div _ hw.nbeamsPerStream_pos).trans (getElem?_beamIds hw hi)

theorem attributed_rpcServer {server : L1Server} (hw : server.Wired) {chain : List PipelineObject} (hchain : chain ≠ [])
    {s : State} (hs : Reachable (step ⟨server, chain, hchain⟩) State.init s) {istream : Nat} {rpcServer : RpcServer}
    (hsrv : s.rpcServers[istream]? = some rpcServer) (R : Readings) :
    ∃ x reply, server.inputStreams[istream]? = some x ∧ getMaxFpgaCounts R rpcServer = some reply ∧
      Attributed ⟨server, chain, hchain⟩ R istream x reply := by
  have hinv := reachable_inv (setup_wired hw hchain).1 hs
  rw [hinv.rpcServers, List.getElem?_map] at hsrv
  obtain ⟨i, hi, rfl⟩ := Option.map_eq_some_iff.1 hsrv
  obtain ⟨hlt, rfl⟩ := List.getElem?_eq_some_iff.1 hi
  rw [List.length_range] at hlt
  rw [List.getElem_range]
  exact attributed_reply hw R (hlt.trans_le hinv.nserved)

/-- **Beams, streams and threads agree**: for every accepted configuration and every interleaving. -/
theorem beams_agree {env : Env} {numCores : Int} {opts : Options} {p : Paramfile} {t : Tree} {server : L1Server}
    (h : (l1Server env numCores opts p t).1 = .ok server) (chain : List PipelineObject) (hchain : chain ≠ []) :
    let S : Setup := ⟨server, chain, hchain⟩
    server.inputStreams.flatMap (fun x => x.iniParams.beamIds) = server.config.beamIds ∧
    (∀ ibeam < S.nbeams, ∃ x, server.inputStreams[S.istream ibeam]? = some x ∧
      S.istream ibeam = ibeam / S.nbeamsPerStream ∧
      x.iniParams.beamIds[ibeam % S.nbeamsPerStream]? = some (S.beamId ibeam)) ∧
    (∀ x ∈ server.inputStreams, ∀ b, b ∈ x.streaming.beamIds ↔
      b ∈ server.config.streamBeamIds ∧ b ∈ x.iniParams.beamIds) ∧
    (∀ b ∈ server.config.streamBeamIds, ∃ x ∈ server.inputStreams, b ∈ x.streaming.beamIds) ∧
    ∀ s, Reachable (step S) State.init s → ∀ istream rpcServer, s.rpcServers[istream]? = some rpcServer →
      ∀ R, ∃ x reply, server.inputStreams[istream]? = some x ∧ getMaxFpgaCounts R rpcServer = some reply ∧
        Attributed S R istream x reply := by
  intro S
  have hw := l1Server_wired h
  obtain ⟨hn, -⟩ := setup_wired hw hchain
  refine ⟨hw.flatMap_beamIds, fun ibeam hi => ?_, fun x hx => hw.mem_streaming hx, fun b hb => hw.exists_streaming hb,
    fun s hs istream rpcServer hsrv R => attributed_rpcServer hw hchain hs hsrv R⟩
  obtain ⟨x, hx, hid⟩ := beamId_thread (S := S) hw (hn ▸ hi)
  exact ⟨x, hx, rfl, hid⟩

/-! ## Twice the same beam -/

def twins : Paramfile where
  filename := "l1.yaml".toList
  nodes    := ("beam_ids", vector [7, 7]) :: (oneStream 2).nodes

def twinsServer : L1Server := (l1Server plainEnv 20 fullOptions twins localDisk).1.toOption.get (by decide +kernel)

def twinsSetup : Setup :=
  ⟨twinsServer, [⟨"pipeline".toList, none⟩, ⟨"mask_counter".toList, some "after".toList⟩], List.cons_ne_nil _ _⟩

/-- `main` up to the wait loop, one thread after the other, and `main` again. -/
def twinsRun : List Action :=
  List.replicate 5 .main ++ List.replicate 8 (.thread 0) ++ List.replicate 8 (.thread 1) ++ List.replicate 5 .main

def twinsReadings : Readings where
  packetMaxFpgaSeen := 0
  flushed           := fun _ => 0
  retrieved         := fun _ => 0
  firstFpgaCount    := fun _ => 0
  posLo             := fun _ => 0
  nchunksProcessed  := fun bonsai => bonsai.thread
  ntChunk           := fun _ => 1024

def twinsState : State := (run (step twinsSetup) State.init twinsRun).get (by decide +kernel)

def twinsRpcServer : RpcServer := twinsState.rpcServers[0]?.get (by decide +kernel)

/-- **By its id alone a beam is not told**: there is an entry of the first beam's id that is not its thread's. -/
theorem twins_share_entries : Reachable (step twinsSetup) State.init twinsState ∧
    twinsState.rpcServers[0]? = some twinsRpcServer ∧ twinsRpcServer.stream.iniParams.beamIds[0]? = some 7 ∧
    ∃ reply e, getMaxFpgaCounts twinsReadings twinsRpcServer = some reply ∧ e ∈ reply ∧ e.where = "bonsai" ∧ e.beam = 7 ∧
      e ≠ bonsaiEntry twinsReadings twinsRpcServer.stream.iniParams.fpgaCountsPerSample 7 (Setup.bonsai 0) := by
  refine ⟨⟨twinsRun, (Option.some_get _).symm⟩, (Option.some_get _).symm, by decide +kernel,
    (getMaxFpgaCounts twinsReadings twinsRpcServer).get (by decide +kernel), ⟨"bonsai", 7, 1024 * 384⟩,
    (Option.some_get _).symm, by decide +kernel, rfl, rfl, by decide +kernel⟩

/-- Yet the entries are those of the two threads, in order. -/
theorem beams_agree_twins : ∃ x reply, twinsServer.inputStreams[0]? = some x ∧
    getMaxFpgaCounts twinsReadings twinsRpcServer = some reply ∧
    Attributed twinsSetup twinsReadings 0 x reply :=
  (beams_agree (toOption_eq_some.1 (Option.some_get _).symm) _ (List.cons_ne_nil _ _)).2.2.2.2 twinsState
    ⟨twinsRun, (Option.some_get _).symm⟩ 0 twinsRpcServer (Option.some_get _).symm twinsReadings

end Startup
end FrbL1
