import FrbL1.AcqOverride
import FrbL1.CorePinning
import FrbL1.NodeConfigs
/-!
# NodeServers — the L1 servers of the production nodes

What the constructor of the server makes of the files of `NodeConfigs`.
-/
namespace FrbL1
namespace NodeConfigs

open Blocks (IsPartition)
open Config
open Conc (Prog)
open Posix (Filename Tree)
open Slices (slice_sublist)

/-! ## The files as the server reads them -/

def Value.node : Value → Node
  | .int n        => scalar n
  | .float x repr => { text repr with asDouble := some x }
  | .bool b       => { text (if b then "true".toList else "false".toList) with asBool := some b }
  | .str s        => text s
  | .ints ns      => vector ns
  | .strs ss      => texts ss

def Info.paramfile (d : Info) (filename : Filename) : Paramfile := ⟨filename, d.map (fun x => (x.1, x.2.node))⟩

/-- A node of the telescope, and a command line without an acquisition. -/
structure Ready (env : Env) (opts : Options) : Prop where
  help       : opts.help = false
  toy        : opts.toy = false
  acq        : opts.acq = none
  args       : opts.args.length = 4
  rfi        : env.rfiChain (opts.args.getD 1 []) = .ok ()
  bonsai     : ∃ b, env.bonsaiConfig (opts.args.getD 2 []) = .ok b ∧ b.nfreq = 16384 ∧ b.transferMatrices = true
  interfaces : ∃ interfaces, env.interfaces = .ok interfaces ∧ (∃ ip, interfaces.lookup "eno1".toList = some ip) ∧
    ∃ ip, interfaces.lookup "eno2".toList = some ip
  makeStream : ∀ iniParams, iniParams.beamIds.Nodup → env.makeStream iniParams = .ok ()

def params (opts : Options) (filename : Filename) : L1Config where
    l1ConfigFilename := filename
    tflag := opts.toy
    fflag := opts.force
    deliberatelyCrash := opts.crash
    ignoreEndOfStream := opts.ignore
    nbeams := 8
    nfreq := 16384
    nstreams := 0
    ntPerPacket := 16
    fpgaCountsPerSample := 384
    ntAlign := 4096
    nrfifreq := 1024
    slowKernels := false
    ipaddr := ["eno1".toList, "eno2".toList]
    port := [1313]
    rpcAddress := ["tcp://eno1:5555".toList, "tcp://eno2:5555".toList]
    prometheusAddress := ["eno1:8888".toList, "eno2:8888".toList]
    loggerAddress := []
    frame0Url := "http://carillon.chime:54321/get-frame0-time".toList
    frame0Timeout := 3000
    rfiMaskMeasHistory := 300
    beamIds := []
    unassembledRingbufNsamples := 4096
    assembledRingbufNsamples := 10000
    telescopingRingbufNsamples := [60000, 120000, 240000]
    writeStagingAreaGb := 19
    unassembledRingbufCapacity := 0
    unassembledNbytesPerList := 0
    unassembledNpacketsPerList := 0
    assembledRingbufNchunks := 0
    telescopingRingbufNchunks := []
    nbytesPerMemorySlab := 0
    totalMemorySlabs := 0
    outputDeviceNames := ["/frb-archiver-1".toList, "/frb-archiver-2".toList]
    intensityPrescale := 1 / 10000
    l1bExecutableFilename := "../ch_frb_L1b/ch-frb-l1b.py".toList
    l1bSearchPath := false
    l1bBufferNsamples := 4000
    l1bPipeTimeout := 0
    l1bPipeBlocking := false
    l1bPipeCapacity := 0
    forceAsynchronousDedispersion := false
    trackGlobalTriggerMax := false
    streamDevname := []
    streamAcqname := []
    streamBeamIds := []
    streamFilenamePattern := []

section
variable {α β : Type} {a : α} {R R' : List String}

theorem run_bind_of {x : Reading α} (h : x.run R = .ok (a, R')) (f : α → Reading β) :
    (x >>= f).run R = (f a).run R' := by
  rw [StateT.run_bind, h, ok_bind]

theorem run_lift_of {x : Except Stop α} (h : x = .ok a) : (liftM x : Reading α).run R = .ok (a, R) := by
  rw [h]
  rfl

end

theorem readParams_info {opts : Options} (htoy : opts.toy = false) (ids : List Int) (filename : Filename) :
    ∃ R, (readParams opts ((info ids).paramfile filename)).run [] = .ok (params opts filename, R) ∧
      ((info ids).paramfile filename).checkForUnusedParams ("beam_ids" :: R) = true := by
  obtain ⟨help, force, ignore, crash, toy, acq, nfs, beams, args⟩ := opts
  obtain rfl : toy = false := htoy
  exact ⟨_, rfl, rfl⟩

def mapped (opts : Options) (filename ip ip' : Filename) (interfaces : List (List Char × List Char)) : L1Config :=
  { params opts filename with
    ipaddr := [ip, ip'], rpcAddress := (params opts filename).rpcAddress.map (mapRpcAddress interfaces)
    prometheusAddress := (params opts filename).prometheusAddress.map (mapPrometheusAddress interfaces) }

def config (opts : Options) (filename ip ip' : Filename) (interfaces : List (List Char × List Char)) (ids : List Int) :
    L1Config :=
  { mapped opts filename ip ip' interfaces with port := [1313, 1313], nstreams := 2, beamIds := ids }

theorem checks_config {opts : Options} (htoy : opts.toy = false) (filename ip ip' : Filename)
    (interfaces : List (List Char × List Char)) :
    runChecks (sanityChecks (config opts filename ip ip' interfaces []) 16384) = .ok () := by
  obtain ⟨help, force, ignore, crash, toy, acq, nfs, beams, args⟩ := opts
  obtain rfl : toy = false := htoy
  rfl

theorem mapIpaddr_ok {env : Env} {interfaces : List (List Char × List Char)} {addr : List Char}
    (h : ∃ ip, interfaces.lookup addr = some ip) : ∃ ip, mapIpaddr env interfaces addr = .ok ip := by
  obtain ⟨ip, hip⟩ := h
  unfold mapIpaddr
  split
  · exact ⟨addr, rfl⟩
  · exact ⟨ip, by rw [hip]⟩

theorem readVectorD_beamIds {ids : List Int} (hints : ∀ b ∈ ids, IsInt b) (filename : Filename) (default : List Int)
    (R : List String) : (((info ids).paramfile filename).readVectorD int "beam_ids" default).run R =
      .ok (ids, "beam_ids" :: R) := by
  have hids : (vector ids).asInts = some ids := if_pos (List.all_eq_true.2 (fun b hb => decide_eq_true (hints b hb)))
  show (((info ids).paramfile filename).readVector2 int "beam_ids" (vector ids)).run R = _
  unfold Paramfile.readVector2
  rw [show int.asVector (vector ids) = some ids from hids]
  rfl

theorem readCommon_info {env : Env} {opts : Options} (h : Ready env opts) {ids : List Int} (hlength : ids.length = 8)
    (hints : ∀ b ∈ ids, IsInt b) (filename : Filename) : ∃ ip ip' interfaces bonsai R,
      (readCommon env opts ((info ids).paramfile filename)).run [] =
        .ok ((config opts filename ip ip' interfaces ids, some bonsai), R) ∧
      ((info ids).paramfile filename).checkForUnusedParams R = true := by
  obtain ⟨bonsai, hbonsai, hnfreq, htransfer⟩ := h.bonsai
  obtain ⟨interfaces, hinterfaces, heno1, heno2⟩ := h.interfaces
  obtain ⟨ip, hip⟩ : ∃ ip, mapIpaddr env _ _ = .ok ip := mapIpaddr_ok heno1
  obtain ⟨ip', hip'⟩ : ∃ ip, mapIpaddr env _ _ = .ok ip := mapIpaddr_ok heno2
  obtain ⟨R, hparams, hunused⟩ := readParams_info h.toy ids filename
  have hargs : checkArgs opts = .ok () := by
    unfold checkArgs
    rw [if_neg (by simp [h.help, h.args])]
  have hrfi : readRfiAndBonsai env opts = .ok (some bonsai) := by
    unfold readRfiAndBonsai
    rw [if_neg (by simp [h.toy]), h.rfi, ok_bind, hbonsai, ok_bind, if_pos htransfer]
    rfl
  have hmap : mapAddresses env (params opts filename) = .ok (mapped opts filename ip ip' interfaces) := by
    have hips : (params opts filename).ipaddr.mapM (mapIpaddr env interfaces) = .ok [ip, ip'] := by
      show (["eno1".toList, "eno2".toList] : List (List Char)).mapM (mapIpaddr env interfaces) = _
      rw [List.mapM_cons, hip, ok_bind, List.mapM_cons, hip', ok_bind]
      rfl
    unfold mapAddresses
    rw [hinterfaces, ok_bind, hips]
    rfl
  have hstreams : setNstreams (mapped opts filename ip ip' interfaces) =
      .ok (config opts filename ip ip' interfaces []) := rfl
  have hchecks : runChecks (sanityChecks (config opts filename ip ip' interfaces [])
      (((some bonsai).map (·.nfreq)).getD 0)) = .ok () := by
    rw [Option.map_some, Option.getD_some, hnfreq]
    exact checks_config h.toy filename ip ip' interfaces
  have hbeams : runChecks (beamIdsChecks (config opts filename ip ip' interfaces ids)) = .ok () := by
    show runChecks [(decide ((ids.length : Int) ≠ 8), _)] = _
    rw [hlength]
    rfl
  refine ⟨ip, ip', interfaces, bonsai, "beam_ids" :: R, ?_, hunused⟩
  unfold readCommon
  rw [run_bind_of (run_lift_of hargs), run_bind_of (run_lift_of hrfi), run_bind_of hparams,
    run_bind_of (run_lift_of hmap), run_bind_of (run_lift_of hstreams), run_bind_of (run_lift_of hchecks),
    run_bind_of (readVectorD_beamIds hints _ _ _)]
  exact run_bind_of (run_lift_of hbeams) _

theorem noStream_info (ids : List Int) (filename : Filename) : ((info ids).paramfile filename).NoStream := by
  intro k hk
  simp only [streamKeys, List.mem_cons, List.not_mem_nil, or_false] at hk
  obtain rfl | rfl | rfl := hk <;> rfl

theorem finishConfig_info {env : Env} {opts : Options} (bonsai : BonsaiConfig) {ids : List Int}
    {filename ip ip' : Filename} {interfaces : List (List Char × List Char)} {R : List String}
    (hunused : ((info ids).paramfile filename).checkForUnusedParams R = true) :
    finishConfig env (some bonsai) ((info ids).paramfile filename) R
        ((config opts filename ip ip' interfaces ids).setStream "ssd".toList [] ids) =
      .ok (deriveL1b (some bonsai) (deriveParams env
        ((config opts filename ip ip' interfaces ids).setStream "ssd".toList [] ids))) := by
  have hchecks : runChecks (streamChecks ((config opts filename ip ip' interfaces ids).setStream "ssd".toList [] ids)) =
      .ok () := by
    have hany : ids.any (fun b => !ids.contains b) = false :=
      List.any_eq_false.2 (fun b hb => by simpa using hb)
    show runChecks [(ids.any (fun b => !ids.contains b), _)] = _
    rw [hany]
    rfl
  have hwarn : hasWarnings (some bonsai) ((info ids).paramfile filename) R (deriveL1b (some bonsai) (deriveParams env
      ((config opts filename ip ip' interfaces ids).setStream "ssd".toList [] ids))) = false := by
    show (!((info ids).paramfile filename).checkForUnusedParams R || decide ((1024 : Int) = 0) || _ ||
      (decide (bonsai.nfreq > 4096) && false)) = false
    rw [hunused, Bool.and_false]
    rfl
  unfold finishConfig
  rw [hchecks, ok_bind]
  simp only [hwarn]
  rfl

theorem vrange_nodup (lo hi : Int) : (vrange lo hi).Nodup :=
  List.nodup_range.map (fun _ _ h => Int.natCast_inj.1 (Int.add_left_cancel h))

/-- **A file of the generator is accepted**, also without `-f`. -/
theorem l1Server_info {env : Env} {opts : Options} (h : Ready env opts) {ids : List Int} (hlength : ids.length = 8)
    (hints : ∀ b ∈ ids, IsInt b) (hnodup : ids.Nodup) (filename : Filename) (t : Tree) : ∃ server,
      (l1Server env 20 opts ((info ids).paramfile filename) t).1 = .ok server ∧ server.config.beamIds = ids ∧
      server.config.nbeams = 8 ∧ server.config.nstreams = 2 := by
  obtain ⟨ip, ip', interfaces, bonsai, R, hcommon, hunused⟩ := readCommon_info h hlength hints filename
  have hstream := run_readStream_noStream (R := R) h.acq (noStream_info ids filename)
    (config opts filename ip ip' interfaces ids)
  generalize hc : deriveL1b (some bonsai) (deriveParams env
    ((config opts filename ip ip' interfaces ids).setStream "ssd".toList [] ids)) = c
  have hrun : (readConfig env opts ((info ids).paramfile filename)).run' [] = .ok c := by
    have hget : (get : Reading (List String)).run R = .ok (R, R) := rfl
    unfold readConfig
    rw [StateT.run'_eq, run_bind_of hcommon, run_bind_of hstream, run_bind_of hget]
    exact congrArg (Functor.map _) (run_lift_of ((finishConfig_info bonsai hunused).trans (congrArg Except.ok hc)))
  obtain ⟨hnbeams, hnstreams, hnfreq, hids, hacq⟩ : c.nbeams = 8 ∧ c.nstreams = 2 ∧ c.nfreq = 16384 ∧ c.beamIds = ids ∧
      c.streamAcqname = [] := by
    obtain ⟨capacity, hderive⟩ := deriveL1b_eq (some bonsai) (deriveParams env
      ((config opts filename ip ip' interfaces ids).setStream "ssd".toList [] ids))
    rw [← hc, hderive]
    exact ⟨rfl, rfl, rfl, rfl, rfl⟩
  have hdirs : Prog.solo Posix.perform (makeAcqdirs c) t = (.ok [], t) := by
    unfold makeAcqdirs FileUtils.acqnameToFilenamePattern
    rw [hacq]
    rfl
  have hncpus : initServer 20 c = .ok 2 := by
    unfold initServer
    rw [hnbeams, hnstreams]
    rfl
  have hslice : ∀ istream, (makeInputStream (c.setPattern []) 1 4 16 istream).iniParams.beamIds.Nodup := fun istream =>
    (hids ▸ hnodup).sublist (slice_sublist c.beamIds 4 istream)
  have hstreams : makeInputStreams env 2 (c.setPattern []) =
      .ok ((List.range c.nstreams.toNat).map (makeInputStream (c.setPattern []) 1 4 16)) :=
    makeInputStreams_eq_ok.2 ⟨1, 4, 16, (congrArg (xdiv · 2) hnstreams).trans rfl,
      (congrArg₂ xdiv hnbeams hnstreams).trans rfl, (congrArg (xdiv · nfreqCoarseTot) hnfreq).trans rfl,
      fun istream _ => h.makeStream _ (hslice istream), rfl⟩
  exact ⟨⟨c.setPattern [], 2, _⟩, l1Server_eq_ok.2 ⟨l1Config_eq_ok.2 ⟨c, [], t, hrun, hdirs, rfl⟩, hncpus, hstreams⟩,
    hids, hnbeams, hnstreams⟩

/-! ## All servers -/

theorem length_beamIds (k : Nat) : (beamIds k).length = 8 := by
  rw [beamIds, L0.length_vrange]
  omega

theorem isInt_of_mem_beamIds {k : Nat} (hk : k < 128) {b : Int} (hb : b ∈ beamIds k) : IsInt b := by
  obtain ⟨hle, hlt⟩ := L0.mem_vrange.1 hb
  unfold firstBeam at hle hlt
  unfold IsInt
  omega

/-- The beams of the stream `x.2` of the server `x.1`. -/
def streamBeams (servers : List L1Server) (x : Nat × Nat) : Set Int :=
  {b | ∃ server stream, servers[x.1]? = some server ∧ server.inputStreams[x.2]? = some stream ∧
    b ∈ stream.iniParams.beamIds}

theorem server_partition {env : Env} {numCores : Int} {opts : Options} {p : Paramfile} {t : Tree} {server : L1Server}
    (hserver : (l1Server env numCores opts p t).1 = .ok server) {ids : List Int} (hids : server.config.beamIds = ids)
    (hnodup : ids.Nodup) (hstreams : server.config.nstreams = 2) :
    IsPartition {i | i < 2}
      (fun i => {b | ∃ stream, server.inputStreams[i]? = some stream ∧ b ∈ stream.iniParams.beamIds})
      {b | b ∈ ids} := by
  have hw := l1Server_wired hserver
  have hlength := hw.length_beamIds
  rw [hstreams, hids] at hlength
  refine (Blocks.slices hnodup hw.nbeamsPerStream_pos hlength).congr (fun i hi => ?_)
  have hi' : i < server.config.nstreams.toNat := hstreams ▸ hi
  obtain ⟨stream, hstream, -, -, hbeams⟩ := hw.getElem?_inputStreams hi'
  ext b
  show (∃ x, _ ∧ _) ↔ b ∈ Slices.slice ids _ i
  rw [hstream, ← hids, ← hbeams]
  constructor
  · rintro ⟨x, hx, hb⟩
    obtain rfl := Option.some.inj hx
    exact hb
  · exact fun hb => ⟨stream, rfl, hb⟩

theorem exists_forall₂ {α β : Type} {R : α → β → Prop} : ∀ {l : List α}, (∀ x ∈ l, ∃ y, R x y) →
    ∃ ys, List.Forall₂ R l ys
  | [], _ => ⟨[], .nil⟩
  | x :: l, h => by
    obtain ⟨y, hy⟩ := h x List.mem_cons_self
    obtain ⟨ys, hys⟩ := exists_forall₂ (fun z hz => h z (List.mem_cons_of_mem _ hz))
    exact ⟨y :: ys, .cons hy hys⟩

/-- **The servers of all nodes**: each file starts one, and each of the first beams of the telescope is received by one
stream of one server. -/
theorem servers_partition {s : NodeStatus} (h : s.Regular) (hn : s.active.length ≤ 128) {env : Name → Env}
    {opts : Name → Options} (hready : ∀ name, Ready (env name) (opts name)) (t : Name → Tree) :
    ∃ st servers, main s = .ok st ∧ servers.length = s.active.length ∧
      List.Forall₂ (fun file server => (l1Server (env file.1) 20 (opts file.1) (file.2.paramfile file.1) (t file.1)).1 =
        .ok server) st.written servers ∧
      IsPartition ({k | k < s.active.length} ×ˢ {i | i < 2}) (streamBeams servers)
        (firstBeams (8 * s.active.length)) := by
  obtain ⟨st, hst, hwritten⟩ := main_eq h
  have hstart : ∀ x ∈ s.active.zipIdx, ∃ server, (l1Server (env x.1.fileName) 20 (opts x.1.fileName)
      ((info (beamIds x.2)).paramfile x.1.fileName) (t x.1.fileName)).1 = .ok server ∧
      server.config.beamIds = beamIds x.2 ∧ server.config.nbeams = 8 ∧ server.config.nstreams = 2 := fun x hx => by
    have hk : x.2 < s.active.length := by
      have hlt := (List.mem_zipIdx hx).2.1
      omega
    exact l1Server_info (hready _) (length_beamIds _) (fun b hb => isInt_of_mem_beamIds (hk.trans_le hn) hb) (vrange_nodup _ _) _ _
  obtain ⟨servers, hservers⟩ := exists_forall₂ hstart
  have hlength : servers.length = s.active.length := by
    rw [← hservers.length_eq, List.length_zipIdx]
  refine ⟨st, servers, hst, hlength, ?_, ?_⟩
  · rw [hwritten, List.forall₂_map_left_iff]
    exact hservers.imp (fun _ _ hx => hx.1)
  · have hnode : ∀ k ∈ {k | k < s.active.length},
        IsPartition {i | i < 2} (fun i => streamBeams servers (k, i)) {b | b ∈ beamIds k} := fun k hk => by
      have hk : k < s.active.length := hk
      obtain ⟨hserver, hids, -, hstreams⟩ := (List.forall₂_iff_get.1 hservers).2 k
        (by rwa [List.length_zipIdx]) (by rwa [hlength])
      have hidx : (s.active.zipIdx.get ⟨k, by rwa [List.length_zipIdx]⟩).2 = k := by simp
      rw [hidx] at hids
      refine (server_partition hserver hids (vrange_nodup _ _) hstreams).congr (fun i _ => ?_)
      have hget : servers[k]? = some (servers.get ⟨k, by rwa [hlength]⟩) := List.getElem?_eq_getElem _
      ext b
      constructor
      · rintro ⟨server, stream, hk, hi, hb⟩
        obtain rfl := Option.some.inj (hget.symm.trans hk)
        exact ⟨stream, hi, hb⟩
      · rintro ⟨stream, hi, hb⟩
        exact ⟨_, stream, hget, hi, hb⟩
    exact (beamIds_partition hn).sigma hnode

/-! ## The production nodes -/

def nodeEnv : Env := { plainEnv with
  bonsaiConfig := fun _ => .ok ⟨16384, 1024, [], true, 0⟩
  interfaces   := .ok [("eno1".toList, "10.6.201.10".toList), ("eno2".toList, "10.7.201.10".toList)]
  inetAton     := fun addr => addr.all (fun c => c.isDigit || c = '.') }

theorem servers_partition_production : ∃ st servers, main production = .ok st ∧ servers.length = 127 ∧
    List.Forall₂ (fun file server => (l1Server nodeEnv 20 fullOptions (file.2.paramfile file.1) localDisk).1 =
      .ok server) st.written servers ∧
    IsPartition ({k | k < 127} ×ˢ {i | i < 2}) (streamBeams servers) (firstBeams (8 * 127)) := by
  have hready : Ready nodeEnv fullOptions := ⟨rfl, rfl, rfl, rfl, rfl, ⟨_, rfl, rfl, rfl⟩, ⟨_, rfl, ⟨_, rfl⟩, ⟨_, rfl⟩⟩,
    fun _ _ => rfl⟩
  have h := servers_partition production_regular (by rw [production_active]; decide) (fun _ => hready)
    (fun _ => localDisk)
  rwa [production_active] at h

end NodeConfigs
end FrbL1
