import FrbL1.Blocks
import FrbL1.L0Params
/-!
# L0Streams — who sends what to whom

The threads of the L0 simulator partition the beams and the coarse frequencies (`ostreams_partition`), one thread of
each stream ends it, after the others (`end_of_stream`), and an L1 server with the same beams and addresses has the same
streams (`l0_agrees_with_l1`).
-/
namespace FrbL1
namespace L0

open Blocks (IsPartition below block blocks row_div row_lt)
open Config
open Posix (Tree)
open Slices (slice getElem?_slice)

/-! ## The threads -/

theorem mem_vrange {lo hi a : Int} : a ∈ vrange lo hi ↔ lo ≤ a ∧ a < hi := by
  unfold vrange
  rw [List.mem_map]
  constructor
  · rintro ⟨i, hi', rfl⟩
    have hlt := List.mem_range.1 hi'
    omega
  · rintro ⟨hlo, hhi⟩
    refine ⟨(a - lo).toNat, List.mem_range.2 ?_, ?_⟩ <;> omega

theorem getElem?_vrange {lo hi : Int} {i : Nat} (h : lo + i < hi) : (vrange lo hi)[i]? = some (lo + i) := by
  unfold vrange
  rw [List.getElem?_map, List.getElem?_range (by omega)]
  rfl

theorem length_vrange (lo hi : Int) : (vrange lo hi).length = (hi - lo).toNat := by simp [vrange]

theorem slice_vrange {n : Int} {k i : Nat} (h : ((i : Int) + 1) * k ≤ n) :
    slice (vrange 0 n) k i = vrange (i * k) ((i + 1) * k) := by
  have hsucc : ((i : Int) + 1) * k = i * k + k := by ring
  refine List.ext_getElem? (fun j => ?_)
  by_cases hj : j < k
  · rw [getElem?_slice _ hj, getElem?_vrange (by push_cast; omega), getElem?_vrange (by omega)]
    push_cast
    rw [zero_add]
  · have hlen : (slice (vrange 0 n) k i).length ≤ k := List.length_take_le _ _
    rw [List.getElem?_eq_none (by omega), List.getElem?_eq_none (by rw [length_vrange]; omega)]

def Ostream.beams (o : Ostream) : Set Int := {b | b ∈ o.beamIds}
def Ostream.coarseFreqs (o : Ostream) : Set Int := {f | f ∈ o.coarseFreqIds}

theorem beams_makeOstream (l : L0Params) (ithread : Nat) :
    (l.makeOstream ithread).beams = block l.nbeamsPerStream (l.istream ithread) :=
  Set.ext (fun _ => mem_vrange)

theorem coarseFreqs_makeOstream (l : L0Params) (ithread : Nat) :
    (l.makeOstream ithread).coarseFreqs = block l.nfreqCoarsePerThread (l.jthread ithread) :=
  Set.ext (fun _ => mem_vrange)

theorem idxOf_range {n i : Nat} (hi : i < n) : (List.range n).idxOf i = i := by
  have hlen : i < (List.range n).length := by rwa [List.length_range]
  have hget := List.nodup_range.idxOf_getElem i hlen
  rwa [List.getElem_range] at hget

def L0Params.lastThread (l : L0Params) (istream : Nat) : Nat :=
  istream * l.nthreadsPerStream.toNat + (l.nthreadsPerStream.toNat - 1)

namespace L0Params.Wired

variable {l : L0Params} (hw : l.Wired)
include hw

theorem toNat_nthreadsPerStream_pos : 0 < l.nthreadsPerStream.toNat := by
  have hpos := hw.nthreadsPerStream_pos
  omega

theorem nthreads_eq : l.nthreads = l.nstreams.toNat * l.nthreadsPerStream.toNat := by
  unfold L0Params.nthreads
  rw [hw.nthreads, Int.toNat_mul hw.nstreams_pos.le hw.nthreadsPerStream_pos.le]

theorem getElem?_streams {ithread : Nat} (hi : ithread < l.nthreads) :
    l.streams[ithread]? = some (l.makeOstream ithread) := by
  rw [hw.streams, List.getElem?_map, List.getElem?_range hi]
  rfl

theorem of_getElem?_streams {ithread : Nat} {o : Ostream} (ho : l.streams[ithread]? = some o) :
    ithread < l.nthreads ∧ o = l.makeOstream ithread := by
  have hi : ithread < l.nthreads := by
    obtain ⟨hi, -⟩ := List.getElem?_eq_some_iff.1 ho
    rw [hw.streams, List.length_map, List.length_range] at hi
    exact hi
  exact ⟨hi, Option.some.inj (ho.symm.trans (hw.getElem?_streams hi))⟩

theorem istream_lt {ithread : Nat} (hi : ithread < l.nthreads) : l.istream ithread < l.nstreams.toNat := by
  rw [hw.nthreads_eq] at hi
  exact Nat.div_lt_of_lt_mul (by rwa [Nat.mul_comm])

theorem ostreams_partition : IsPartition {ithread | ithread < l.nthreads}
    (fun ithread => (l.makeOstream ithread).beams ×ˢ (l.makeOstream ithread).coarseFreqs)
    (below l.nbeamsTot ×ˢ below nfreqCoarse) := by
  have hrows := IsPartition.rows hw.toNat_nthreadsPerStream_pos (blocks hw.nbeamsPerStream_pos l.nstreams.toNat)
    (blocks hw.nfreqCoarsePerThread_pos l.nthreadsPerStream.toNat)
  simp only [beams_makeOstream, coarseFreqs_makeOstream]
  rw [hw.nthreads_eq, hw.nbeams, hw.nfreq]
  rw [Int.toNat_of_nonneg hw.nstreams_pos.le, Int.toNat_of_nonneg hw.nthreadsPerStream_pos.le] at hrows
  exact hrows

theorem sendEndOfStreamPackets_iff (ithread : Nat) : (l.makeOstream ithread).sendEndOfStreamPackets = true ↔
    ithread = l.lastThread (l.istream ithread) := by
  have hpos := hw.toNat_nthreadsPerStream_pos
  have hdm := Nat.div_add_mod ithread l.nthreadsPerStream.toNat
  have hcomm := Nat.mul_comm l.nthreadsPerStream.toNat (ithread / l.nthreadsPerStream.toNat)
  unfold L0Params.makeOstream L0Params.lastThread L0Params.istream L0Params.jthread
  simp only [decide_eq_true_eq]
  omega

/-- **A stream is ended last by the one thread that says so.** -/
theorem end_of_stream {istream : Nat} (hi : istream < l.nstreams.toNat) :
    l.lastThread istream < l.nthreads ∧ l.istream (l.lastThread istream) = istream ∧
    (l.makeOstream (l.lastThread istream)).sendEndOfStreamPackets = true ∧
    ∀ ithread < l.nthreads, l.istream ithread = istream → ithread ≠ l.lastThread istream →
      (l.makeOstream ithread).sendEndOfStreamPackets = false ∧
      l.endStreams.idxOf ithread < l.endStreams.idxOf (l.lastThread istream) := by
  have hpos := hw.toNat_nthreadsPerStream_pos
  have hlast : l.istream (l.lastThread istream) = istream := by
    unfold L0Params.lastThread L0Params.istream
    exact row_div (Nat.sub_lt hpos Nat.one_pos)
  have hlt : l.lastThread istream < l.nthreads := by
    rw [hw.nthreads_eq]
    unfold L0Params.lastThread
    exact row_lt hi (Nat.sub_lt hpos Nat.one_pos)
  refine ⟨hlt, hlast, (hw.sendEndOfStreamPackets_iff _).2 (by rw [hlast]), fun ithread hithread hs hne => ⟨?_, ?_⟩⟩
  · rw [← Bool.not_eq_true, hw.sendEndOfStreamPackets_iff, hs]
    exact hne
  · unfold L0Params.endStreams
    rw [idxOf_range hithread, idxOf_range hlt]
    have hdm := Nat.div_add_mod ithread l.nthreadsPerStream.toNat
    have hmod := Nat.mod_lt ithread hpos
    have hcomm := Nat.mul_comm l.nthreadsPerStream.toNat (ithread / l.nthreadsPerStream.toNat)
    unfold L0Params.istream at hs
    unfold L0Params.lastThread at hne ⊢
    rw [hs] at hdm hcomm
    omega

end L0Params.Wired

/-! ## The same addresses in both programs -/

/-- What both programs make of the addresses and the ports. -/
def spread (ips : List (List Char)) (ports : List Int) : List (List Char) × List Int :=
  if ips.length = 1 ∧ ports.length > 1 then (List.replicate ports.length (ips.headD []), ports)
  else if ips.length > 1 ∧ ports.length = 1 then (ips, List.replicate ips.length (ports.headD 0))
  else (ips, ports)

theorem broadcast_eq_spread (l : L0Params) :
    ((broadcast l).ipaddr, (broadcast l).port) = spread l.ipaddr l.port := by
  unfold broadcast spread
  split
  · rfl
  · split <;> rfl

theorem broadcastIpaddr_eq_spread (c : L1Config) :
    ((broadcastIpaddr c).ipaddr, (broadcastIpaddr c).port) = spread c.ipaddr c.port := by
  unfold broadcastIpaddr spread
  split
  · rfl
  · split <;> rfl

theorem setNstreams_spread {c c' : L1Config} (h : setNstreams c = .ok c') :
    c'.nbeams = c.nbeams ∧ (c'.ipaddr, c'.port) = spread c.ipaddr c.port := by
  rw [← broadcastIpaddr_eq_spread]
  unfold setNstreams Config.countStreams at h
  split at h
  · cases h
  · cases h
    exact ⟨broadcastIpaddr_nbeams c, rfl⟩

theorem mem_spread {ips : List (List Char)} (ports : List Int) {addr : List Char} (h : addr ∈ ips) :
    addr ∈ (spread ips ports).1 := by
  unfold spread
  split
  · rename_i hlen
    obtain ⟨a, rfl⟩ := List.length_eq_one_iff.1 hlen.1
    rw [List.mem_singleton.1 h]
    exact List.mem_replicate.2 ⟨by omega, rfl⟩
  · split <;> exact h

theorem readL0_ok {gbps : ℚ} {p : Paramfile} {R : List String} {x : L0Params × List String}
    (h : (readL0 gbps p).run R = .ok x) : p.HasScalar int "nbeams" x.1.nbeamsTot ∧
      p.HasVector string "ipaddr" x.1.ipaddr ∧ p.HasVector int "port" x.1.port := by
  unfold readL0 at h
  obtain ⟨_, _, hnbeams, h⟩ := run_bind_eq_ok h
  iterate 6 obtain ⟨_, _, -, h⟩ := run_bind_eq_ok h
  obtain ⟨_, _, hipaddr, h⟩ := run_bind_eq_ok h
  obtain ⟨_, _, hport, h⟩ := run_bind_eq_ok h
  cases h
  exact ⟨Paramfile.readScalar_ok hnbeams, Paramfile.readVector_ok hipaddr, Paramfile.readVector_ok hport⟩

theorem mapM_mapIpaddr {env : Env} {interfaces : List (List Char × List Char)} : ∀ {addrs : List (List Char)},
    (∀ addr ∈ addrs, env.inetAton addr = true) → addrs.mapM (mapIpaddr env interfaces) = .ok addrs
  | [], _ => rfl
  | addr :: addrs, h => by
    have haddr : mapIpaddr env interfaces addr = .ok addr := if_pos (h addr (.head _))
    rw [List.mapM_cons, haddr, ok_bind, mapM_mapIpaddr (fun a ha => h a (.tail _ ha))]
    rfl

theorem readCommon_from {env : Env} {opts : Options} {p : Paramfile} {R R' : List String} {c : L1Config}
    {bonsai : Option BonsaiConfig} (h : (readCommon env opts p).run R = .ok ((c, bonsai), R')) :
    ∃ ips ports, p.HasScalar int "nbeams" c.nbeams ∧ p.HasVector string "ipaddr" ips ∧ p.HasVector int "port" ports ∧
      ((∀ addr ∈ ips, env.inetAton addr = true) → (c.ipaddr, c.port) = spread ips ports) ∧
      (p.node "beam_ids" = none → c.beamIds = vrange 0 c.nbeams) := by
  obtain ⟨c₀, c₁, c₂, beamIds, _, _, _, _, hread, hmap, hcount, -, hbeams, rfl, -⟩ := readCommon_parts h
  obtain ⟨hnbeams, hipaddr, hport, -⟩ := readParams_ok hread
  obtain ⟨interfaces, -, hmap⟩ := bind_eq_ok hmap
  obtain ⟨ips, hips, hmap⟩ := bind_eq_ok hmap
  obtain rfl := Except.ok.inj hmap
  obtain ⟨hn, hspread⟩ := setNstreams_spread hcount
  refine ⟨c₀.ipaddr, c₀.port, ?_, hipaddr, hport, fun hdotted => ?_, fun hnone => ?_⟩
  · show p.HasScalar int "nbeams" c₂.nbeams
    rw [hn]
    exact hnbeams
  · rw [mapM_mapIpaddr hdotted] at hips
    obtain rfl := Except.ok.inj hips
    exact hspread
  · rw [Paramfile.run_readVectorD_default _ hnone] at hbeams
    cases hbeams
    rfl

/-! ## All of it -/

theorem from_spread {l l₀ : L0Params} (h : l.From l₀) : (l.ipaddr, l.port) = spread l₀.ipaddr l₀.port := by
  rw [← broadcast_eq_spread, h.ipaddr, h.port]

structure SameStreams (p p0 : Paramfile) : Prop where
  nbeams : ∀ n, p0.HasScalar int "nbeams" n → p.HasScalar int "nbeams" n
  ipaddr : ∀ ips, p0.HasVector string "ipaddr" ips → p.HasVector string "ipaddr" ips
  port   : ∀ ports, p0.HasVector int "port" ports → p.HasVector int "port" ports

theorem sameStreams_of_node {p p0 : Paramfile} (h : ∀ k ∈ ["nbeams", "ipaddr", "port"], p.node k = p0.node k) :
    SameStreams p p0 := by
  refine ⟨fun n hn => ?_, fun ips hips => ?_, fun ports hports => ?_⟩
  · unfold Paramfile.HasScalar at hn ⊢
    rwa [h "nbeams" (by simp)]
  · unfold Paramfile.HasVector at hips ⊢
    rwa [h "ipaddr" (by simp)]
  · unfold Paramfile.HasVector at hports ⊢
    rwa [h "port" (by simp)]

/-- **An L1 server with the same beams and addresses** has the streams that the threads send to. -/
theorem l1_streams {env0 : L0Env} {gbps : ℚ} {p0 : Paramfile} {l : L0Params} {R : List String}
    (h0 : (l0Params env0 gbps p0).run [] = .ok (l, R)) {env : Env} {numCores : Int} {opts : Options} {p : Paramfile}
    {t : Tree} {server : L1Server} (h1 : (l1Server env numCores opts p t).1 = .ok server)
    (hsame : SameStreams p p0) (hbeams : p.node "beam_ids" = none)
    (hdotted : ∀ addr ∈ l.ipaddr, env.inetAton addr = true) :
    server.config.nstreams = l.nstreams ∧ ∀ ithread < l.nthreads, ∃ x,
      server.inputStreams[l.istream ithread]? = some x ∧
      (l.makeOstream ithread).dstname = dstname x.iniParams.ipaddr x.iniParams.udpPort ∧
      (l.makeOstream ithread).beamIds = x.iniParams.beamIds := by
  obtain ⟨hw, l₀, R₀, hread, hfrom⟩ := l0Params_ok h0
  obtain ⟨hnb0, hip0, hport0⟩ := readL0_ok hread
  have hw1 := l1Server_wired h1
  obtain ⟨c₀, bonsai, R₁, hcommon, hlayout, -⟩ := l1Config_sane (l1Server_eq_ok.1 h1).1
  obtain ⟨ips, ports, hnb, hip, hport, haddrs, hids⟩ := readCommon_from hcommon
  obtain ⟨hnbeams, hnstreams, hipaddr, hports, hbeamIds⟩ := Layout.mk.inj hlayout
  obtain rfl := (hsame.ipaddr _ hip0).unique hip
  obtain rfl := (hsame.port _ hport0).unique hport
  have hn := (hsame.nbeams _ hnb0).unique hnb
  have hdot : ∀ addr ∈ l₀.ipaddr, env.inetAton addr = true := fun addr ha => by
    have hmem := mem_spread l₀.port ha
    rw [← from_spread hfrom] at hmem
    exact hdotted addr hmem
  obtain ⟨hip', hport'⟩ := Prod.mk.inj ((haddrs hdot).trans (from_spread hfrom).symm)
  rw [hip'] at hipaddr
  rw [hport'] at hports
  have hns : server.config.nstreams = l.nstreams := by
    rw [← hfrom.nstreams.1, ← hw1.ipaddr_length, hipaddr]
  have hnbps : (server.config.nbeamsPerStream : Int) = l.nbeamsPerStream := by
    have hmul : l.nstreams * (server.config.nbeamsPerStream : Int) = l.nstreams * l.nbeamsPerStream := by
      rw [← hns, ← hw1.nbeams, hnbeams, hn, ← hfrom.nbeams, hw.nbeams, hns]
    exact Int.eq_of_mul_eq_mul_left hw.nstreams_pos.ne' hmul
  refine ⟨hns, fun ithread hithread => ?_⟩
  obtain ⟨x, hx, hxip, hxport, hxbeams⟩ := hw1.getElem?_inputStreams (hns ▸ hw.istream_lt hithread)
  refine ⟨x, hx, ?_, ?_⟩
  · rw [hxip, hxport, hipaddr, hports]
    rfl
  · have hle : ((l.istream ithread : Int) + 1) * l.nbeamsPerStream ≤ c₀.nbeams := by
      have hlt := hw.istream_lt hithread
      rw [hn, ← hfrom.nbeams, hw.nbeams]
      exact Int.mul_le_mul_of_nonneg_right (by omega) hw.nbeamsPerStream_pos.le
    rw [hxbeams, hbeamIds, hids hbeams]
    rw [← hnbps] at hle
    rw [slice_vrange hle, hnbps]
    rfl

/-- **The L0 simulator and the L1 server agree**: the output streams partition the beams and the coarse frequencies, a
stream is ended by one thread after the others, and an L1 server with the same addresses and beams has the same streams. -/
theorem l0_agrees_with_l1 {env0 : L0Env} {gbps : ℚ} {p0 : Paramfile} {l : L0Params} {R : List String}
    (h0 : (l0Params env0 gbps p0).run [] = .ok (l, R)) :
    (∀ ithread, ithread < l.nthreads ↔ ∃ o, l.streams[ithread]? = some o) ∧
    IsPartition {ithread | ithread < l.nthreads} (fun ithread => {x | ∃ o, l.streams[ithread]? = some o ∧
      x.1 ∈ o.beamIds ∧ x.2 ∈ o.coarseFreqIds}) (below l.nbeamsTot ×ˢ below nfreqCoarse) ∧
    (∀ istream < l.nstreams.toNat, ∃ last, l.istream last = istream ∧
      (∃ o, l.streams[last]? = some o ∧ o.sendEndOfStreamPackets = true) ∧
      ∀ ithread o, l.streams[ithread]? = some o → l.istream ithread = istream → ithread ≠ last →
        o.sendEndOfStreamPackets = false ∧ l.endStreams.idxOf ithread < l.endStreams.idxOf last) ∧
    ∀ env numCores opts p t server, (l1Server env numCores opts p t).1 = .ok server →
      SameStreams p p0 → p.node "beam_ids" = none → (∀ addr ∈ l.ipaddr, env.inetAton addr = true) →
      server.config.nstreams = l.nstreams ∧ ∀ ithread o, l.streams[ithread]? = some o → ∃ x,
        server.inputStreams[l.istream ithread]? = some x ∧
        o.dstname = dstname x.iniParams.ipaddr x.iniParams.udpPort ∧ o.beamIds = x.iniParams.beamIds := by
  obtain ⟨hw, -⟩ := l0Params_ok h0
  refine ⟨fun ithread => ⟨fun hi => ⟨_, hw.getElem?_streams hi⟩, fun ⟨o, ho⟩ => (hw.of_getElem?_streams ho).1⟩, ?_,
    fun istream hi => ?_, fun env numCores opts p t server h1 hsame hbeams hdotted => ?_⟩
  · refine hw.ostreams_partition.congr (fun ithread hi => Set.ext (fun x => ?_))
    rw [Set.mem_ofPred_eq, hw.getElem?_streams hi]
    exact ⟨fun ⟨_, ho, hx⟩ => Option.some.inj ho ▸ hx, fun hx => ⟨_, rfl, hx⟩⟩
  · obtain ⟨hlt, hlast, hsends, hothers⟩ := hw.end_of_stream hi
    refine ⟨l.lastThread istream, hlast, ⟨_, hw.getElem?_streams hlt, hsends⟩, fun ithread o ho hs hne => ?_⟩
    obtain ⟨hithread, rfl⟩ := hw.of_getElem?_streams ho
    exact hothers ithread hithread hs hne
  · obtain ⟨hns, hstreams⟩ := l1_streams h0 h1 hsame hbeams hdotted
    refine ⟨hns, fun ithread o ho => ?_⟩
    obtain ⟨hithread, rfl⟩ := hw.of_getElem?_streams ho
    exact hstreams ithread hithread

/-! ## Two streams -/

def twoPorts : List (String × Node) := [("nbeams", scalar 2), ("ipaddr", text "127.0.0.1".toList),
  ("port", vector [6677, 6678]), ("nfreq", scalar 2048), ("nt_per_packet", scalar 16)]

def l0File : Paramfile where
  filename := "l0.yaml".toList
  nodes    := twoPorts ++ [("nthreads", scalar 4)]

def l1File : Paramfile where
  filename := "l1.yaml".toList
  nodes    := twoPorts ++ [("nt_align", scalar 0), ("nrfifreq", scalar 1024),
    ("rpc_address", texts ["tcp://127.0.0.1:5555".toList, "tcp://127.0.0.1:5556".toList]),
    ("prometheus_address", texts ["127.0.0.1:8888".toList, "127.0.0.1:8889".toList]), ("frame0_url", text []),
    ("output_devices", text "/local".toList)]

def l0Env : L0Env where
  packetSize  := plainEnv.packetSize
  makeOstream := fun _ => .ok ()

def l0Example : L0Params × List String := ((l0Params l0Env 1 l0File).run []).toOption.get (by decide +kernel)

def l1Example : L1Server := (l1Server plainEnv 20 toyOptions l1File localDisk).1.toOption.get (by decide +kernel)

theorem l0Example_ok : (l0Params l0Env 1 l0File).run [] = .ok l0Example := toOption_eq_some.1 (Option.some_get _).symm

theorem l1Example_ok : (l1Server plainEnv 20 toyOptions l1File localDisk).1 = .ok l1Example :=
  toOption_eq_some.1 (Option.some_get _).symm

theorem sameStreams_files : SameStreams l1File l0File := by
  have hsome : ∀ k ∈ ["nbeams", "ipaddr", "port"], (twoPorts.lookup k).isSome = true := by decide +kernel
  refine sameStreams_of_node (fun k hk => ?_)
  obtain ⟨n, hn⟩ := Option.isSome_iff_exists.1 (hsome k hk)
  unfold Paramfile.node l1File l0File
  rw [List.lookup_append, List.lookup_append, hn, Option.some_or, Option.some_or]

theorem l0_agrees_with_l1_two : l1Example.config.nstreams = l0Example.1.nstreams ∧
    ∀ ithread o, l0Example.1.streams[ithread]? = some o → ∃ x,
      l1Example.inputStreams[l0Example.1.istream ithread]? = some x ∧
      o.dstname = dstname x.iniParams.ipaddr x.iniParams.udpPort ∧ o.beamIds = x.iniParams.beamIds :=
  (l0_agrees_with_l1 (l := l0Example.1) (R := l0Example.2) l0Example_ok).2.2.2 plainEnv 20 toyOptions l1File localDisk
    l1Example l1Example_ok sameStreams_files (List.lookup_eq_none_iff.2 (by decide +kernel)) (fun _ _ => rfl)

end L0
end FrbL1
