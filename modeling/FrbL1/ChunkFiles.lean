import FrbL1.AcqFiles
import FrbL1.AcqOptions
import FrbL1.Blocks
/-!
# ChunkFiles — the names of the chunk files of one node

A chunk's file is named after its beam and its index, and on the NFS area after its stream: two chunks of one name have
the same beam (`beam_of_file`).  Beams are told apart by their ids, and nothing checks that these are distinct: where
they are, no two of a server's beams share a file, and where they are not, two streams may write to the same one
(`chunk_files_apart`, `chunk_files_shared`).
-/
namespace FrbL1
namespace Config

open FileUtils
open Posix (Filename Tree)
open Rpc (AssembledChunk)
open Blocks (row_div row_mod)
open Slices (slice getElem?_slice length_slice)
open Template (cut_first cut_last)

/-! ## Reading a file's name -/

section
variable {formatFilename : AssembledChunk → Filename → Filename} (hformat : FormatsAsDocumented formatFilename)
include hformat

theorem beam_of_file {k k' : AssembledChunk} {devname acqname : Filename}
    (h : formatFilename k (filenamePattern devname acqname) = formatFilename k' (filenamePattern devname acqname)) :
    k.beamId = k'.beamId ∧ k.ichunk = k'.ichunk ∧
      (strcaseeq devname "ssd".toList = false → k.streamId = k'.streamId) := by
  rw [format_filenamePattern hformat, format_filenamePattern hformat] at h
  obtain ⟨hdir, hindex⟩ := cut_last (slash_not_mem_chunk _) (slash_not_mem_chunk _) h
  obtain ⟨hbase, hid⟩ := cut_last (slash_not_mem_beam _) (slash_not_mem_beam _) hdir
  refine ⟨formatInt_injective 4 (List.append_cancel_left hid), ?_, fun hnfs => ?_⟩
  · have hn := formatInt_injective 8 (List.append_cancel_right (List.append_cancel_left hindex))
    exact UInt64.toNat_inj.1 (Int.ofNat.inj hn)
  · have hssd : ¬ strcaseeq devname "ssd".toList = true := by
      rw [hnfs]
      exact Bool.false_ne_true
    unfold fileBase at hbase
    rw [if_neg hssd, if_neg hssd, nfsBase_append, nfsBase_append] at hbase
    have hstream := (cut_first (slash_not_mem_toString _) (slash_not_mem_toString _) (List.append_cancel_left hbase)).1
    rw [← formatInt_one, ← formatInt_one] at hstream
    exact formatInt_injective 1 hstream

end

/-! ## The chunks of a stream -/

/-- A chunk of the beam at one position of a stream, which the stream writes to a file. -/
structure InputStream.Records (x : InputStream) (j : Nat) (k : AssembledChunk) : Prop where
  streamId : k.streamId = x.iniParams.streamId
  beamId   : x.iniParams.beamIds[j]? = some k.beamId
  streamed : k.beamId ∈ x.streaming.beamIds

theorem streamFilenamePattern_eq {env : Env} {opts : Options} {p : Paramfile} {t : Tree} {c : L1Config}
    (h : (l1Config env opts p t).1 = .ok c) (hacq : c.streamAcqname ≠ []) (hbeams : c.streamBeamIds ≠ []) :
    c.streamFilenamePattern = filenamePattern c.streamDevname c.streamAcqname := by
  obtain ⟨c₁, pattern, t', -, hsolo, rfl⟩ := l1Config_eq_ok.1 h
  exact (acqnameToFilenamePattern_ok hsolo (pattern_ne_nil hacq hbeams hsolo)).2.1

namespace L1Server.Wired

variable {server : L1Server} (hw : server.Wired)
include hw

theorem of_getElem?_inputStreams {i : Nat} {x : InputStream} (hx : server.inputStreams[i]? = some x) :
    i < server.config.nstreams.toNat ∧ x.iniParams.streamId = i + 1 ∧
      x.streaming.pattern = server.config.streamFilenamePattern := by
  obtain ⟨nstreamsPerCpu, nupfreq, hss⟩ := hw.inputStreams
  rw [hss, List.getElem?_map] at hx
  obtain ⟨i', hi', rfl⟩ := Option.map_eq_some_iff.1 hx
  obtain ⟨hi, hii⟩ := List.getElem?_eq_some_iff.1 hi'
  rw [List.length_range] at hi
  rw [List.getElem_range] at hii
  subst hii
  exact ⟨hi, rfl, rfl⟩

theorem getElem?_beamIds {i j : Nat} {x : InputStream} {b : Int} (hx : server.inputStreams[i]? = some x)
    (hb : x.iniParams.beamIds[j]? = some b) :
    j < server.config.nbeamsPerStream ∧ server.config.beamIds[i * server.config.nbeamsPerStream + j]? = some b := by
  have hi := (hw.of_getElem?_inputStreams hx).1
  obtain ⟨x', hx', -, -, hslice⟩ := hw.getElem?_inputStreams hi
  obtain rfl := Option.some.inj (hx.symm.trans hx')
  rw [hslice] at hb
  have hj : j < server.config.nbeamsPerStream := by
    have hlt := (List.getElem?_eq_some_iff.1 hb).1
    rwa [length_slice hw.length_beamIds hi] at hlt
  exact ⟨hj, by rwa [getElem?_slice _ hj] at hb⟩

theorem position_of_beam (hnodup : server.config.beamIds.Nodup) {i i' j j' : Nat} {x x' : InputStream} {b : Int}
    (hx : server.inputStreams[i]? = some x) (hx' : server.inputStreams[i']? = some x')
    (hb : x.iniParams.beamIds[j]? = some b) (hb' : x'.iniParams.beamIds[j']? = some b) : i = i' ∧ j = j' := by
  obtain ⟨hj, hpos⟩ := hw.getElem?_beamIds hx hb
  obtain ⟨hj', hpos'⟩ := hw.getElem?_beamIds hx' hb'
  have hlt := (List.getElem?_eq_some_iff.1 hpos).1
  have heq : i * server.config.nbeamsPerStream + j = i' * server.config.nbeamsPerStream + j' :=
    (List.getElem?_inj hlt hnodup).1 (hpos.trans hpos'.symm)
  constructor
  · rw [← row_div (i := i) hj, heq, row_div hj']
  · rw [← row_mod (i := i) hj, heq, row_mod hj']

end L1Server.Wired

/-! ## All servers -/

/-- **Two chunks with one file** have one beam id, and on the NFS area one stream; so where the beam ids are distinct,
no two positions of a server share a file. -/
theorem chunk_files_apart (formatFilename : AssembledChunk → Filename → Filename)
    (hformat : FormatsAsDocumented formatFilename) (env : Env) (numCores : Int) (opts : Options) (p : Paramfile)
    (t : Tree) (server : L1Server) (hserver : (l1Server env numCores opts p t).1 = .ok server)
    (hacq : server.config.streamAcqname ≠ []) (i i' j j' : Nat) (x x' : InputStream)
    (hx : server.inputStreams[i]? = some x) (hx' : server.inputStreams[i']? = some x')
    (k k' : AssembledChunk) (hk : x.Records j k) (hk' : x'.Records j' k') :
    (k.beamId ≠ k'.beamId ∨ (strcaseeq server.config.streamDevname "ssd".toList = false ∧ i ≠ i') →
      formatFilename k x.streaming.pattern ≠ formatFilename k' x'.streaming.pattern) ∧
    (server.config.beamIds.Nodup → (i, j) ≠ (i', j') →
      formatFilename k x.streaming.pattern ≠ formatFilename k' x'.streaming.pattern) := by
  have hw := l1Server_wired hserver
  obtain ⟨-, hid, hpat⟩ := hw.of_getElem?_inputStreams hx
  obtain ⟨-, hid', hpat'⟩ := hw.of_getElem?_inputStreams hx'
  have hbeams : server.config.streamBeamIds ≠ [] :=
    List.ne_nil_of_mem ((hw.mem_streaming (List.mem_of_getElem? hx) _).1 hk.streamed).1
  rw [hpat, hpat', streamFilenamePattern_eq (l1Server_eq_ok.1 hserver).1 hacq hbeams]
  constructor
  · rintro hne h
    obtain ⟨hbeam, -, hstream⟩ := beam_of_file hformat h
    rcases hne with hne | ⟨hnfs, hne⟩
    · exact hne hbeam
    · have hsame := hstream hnfs
      rw [hk.streamId, hk'.streamId, hid, hid'] at hsame
      omega
  · intro hnodup hne h
    have hbeam := (beam_of_file hformat h).1
    obtain ⟨rfl, rfl⟩ := hw.position_of_beam hnodup hx hx' hk.beamId (hbeam ▸ hk'.beamId)
    exact hne rfl

/-! ## Two streams -/

def recording (beamIds : List Int) : Paramfile where
  filename := "l1.yaml".toList
  nodes    := [("nbeams", scalar 2), ("beam_ids", vector beamIds), ("stream_acqname", text "run1".toList),
    ("nfreq", scalar 2048), ("nt_per_packet", scalar 16), ("nt_align", scalar 0), ("nrfifreq", scalar 1024),
    ("ipaddr", text "127.0.0.1".toList), ("port", vector [6677, 6678]),
    ("rpc_address", texts ["tcp://127.0.0.1:5555".toList, "tcp://127.0.0.1:5556".toList]),
    ("prometheus_address", texts ["127.0.0.1:8888".toList, "127.0.0.1:8889".toList]), ("frame0_url", text []),
    ("output_devices", text "/local".toList)]

def recordingServer : L1Server :=
  (l1Server plainEnv 20 toyOptions (recording [6, 7]) localDisk).1.toOption.get (by decide +kernel)

def sharingServer : L1Server :=
  (l1Server plainEnv 20 toyOptions (recording [7, 7]) localDisk).1.toOption.get (by decide +kernel)

def chunkOf (x : InputStream) (beamId : Int) : AssembledChunk := ⟨beamId, 0, 393216, 5, 1, x.iniParams.streamId⟩

def TwoRecorded (server : L1Server) (b b' : Int) : Prop :=
  server.config.streamAcqname ≠ [] ∧
  server.inputStreams.map (fun x => (x.iniParams.beamIds, x.iniParams.beamIds.all x.streaming.beamIds.contains,
    x.streaming.pattern)) = [([b], true, filenamePattern "ssd".toList "run1".toList),
      ([b'], true, filenamePattern "ssd".toList "run1".toList)]

instance (server : L1Server) (b b' : Int) : Decidable (TwoRecorded server b b') := inferInstanceAs (Decidable (_ ∧ _))

theorem TwoRecorded.streams {server : L1Server} {b b' : Int} (h : TwoRecorded server b b') :
    ∃ x x', server.inputStreams[0]? = some x ∧ server.inputStreams[1]? = some x' ∧
      x.Records 0 (chunkOf x b) ∧ x'.Records 0 (chunkOf x' b') ∧
      x.streaming.pattern = filenamePattern "ssd".toList "run1".toList ∧
      x'.streaming.pattern = filenamePattern "ssd".toList "run1".toList := by
  obtain ⟨-, hmap⟩ := h
  rcases hs : server.inputStreams with _ | ⟨x, _ | ⟨x', xs⟩⟩
  · rw [hs] at hmap
    cases hmap
  · rw [hs] at hmap
    cases (List.cons.inj hmap).2
  · rw [hs] at hmap
    obtain ⟨hx, hrest⟩ := List.cons.inj hmap
    obtain ⟨hids, hx⟩ := Prod.mk.inj hx
    obtain ⟨hlist, hpat⟩ := Prod.mk.inj hx
    obtain ⟨hids', hx'⟩ := Prod.mk.inj (List.cons.inj hrest).1
    obtain ⟨hlist', hpat'⟩ := Prod.mk.inj hx'
    refine ⟨x, x', rfl, rfl, ⟨rfl, ?_, ?_⟩, ⟨rfl, ?_, ?_⟩, hpat, hpat'⟩
    · rw [hids]
      rfl
    · rw [hids, List.all_cons, List.all_nil, Bool.and_true] at hlist
      exact List.contains_iff_mem.1 hlist
    · rw [hids']
      rfl
    · rw [hids', List.all_cons, List.all_nil, Bool.and_true] at hlist'
      exact List.contains_iff_mem.1 hlist'

theorem chunk_files_apart_recording : ∃ x x', recordingServer.inputStreams[0]? = some x ∧
    recordingServer.inputStreams[1]? = some x' ∧
    fillFilename (chunkOf x 6) x.streaming.pattern ≠ fillFilename (chunkOf x' 7) x'.streaming.pattern := by
  have hrecords : TwoRecorded recordingServer 6 7 := by decide +kernel
  obtain ⟨x, x', hx, hx', hk, hk', -, -⟩ := hrecords.streams
  exact ⟨x, x', hx, hx', (chunk_files_apart fillFilename fillFilename_asDocumented plainEnv 20 toyOptions
    (recording [6, 7]) localDisk recordingServer (toOption_eq_some.1 (Option.some_get _).symm) hrecords.1 0 1 0 0 x x' hx
    hx' _ _ hk hk').1 (.inl (by decide : (6 : Int) ≠ 7))⟩

/-- **Two streams that write to one file**: both have a beam of the id 7, and the files are on the local disk. -/
theorem chunk_files_shared : (l1Server plainEnv 20 toyOptions (recording [7, 7]) localDisk).1 = .ok sharingServer ∧
    sharingServer.config.streamAcqname ≠ [] ∧
    ∃ x x' k k', sharingServer.inputStreams[0]? = some x ∧ sharingServer.inputStreams[1]? = some x' ∧
      x.Records 0 k ∧ x'.Records 0 k' ∧
      ∀ formatFilename, FormatsAsDocumented formatFilename →
        formatFilename k x.streaming.pattern = formatFilename k' x'.streaming.pattern := by
  have hrecords : TwoRecorded sharingServer 7 7 := by decide +kernel
  obtain ⟨x, x', hx, hx', hk, hk', hpat, hpat'⟩ := hrecords.streams
  refine ⟨toOption_eq_some.1 (Option.some_get _).symm, hrecords.1, x, x', _, _, hx, hx', hk, hk',
    fun formatFilename hformat => ?_⟩
  have hplain : ∀ k, formatFilename k "run1".toList = "run1".toList := fun k => hformat.plain k _ (by decide)
  rw [hpat, hpat', format_filenamePattern hformat, format_filenamePattern hformat, hplain, hplain]
  rfl

end Config
end FrbL1
