import FrbL1.Exposition
import FrbL1.FilenamePattern
import Mathlib.Algebra.Group.Nat.Defs
/-!
# Prometheus — the metrics of an L1 node

What the GET handler prints, from the statistics of the stream, its packet rates and the mask counters.  Printed text is
put together by `printf`, with what each conversion makes of its argument; `\x7b` and `\x7d` are braces.  A NaN has no
sign here, which glibc prints, and names have no NUL, at which `c_str()` would end.
-/
namespace FrbL1
namespace Prometheus

open Exposition (Text)

/-! ## `mg_printf` -/

/-- `n / d` to the nearest integer, and to the even one in the middle. -/
def roundDiv (n d : Nat) : Nat :=
  if 2 * (n % d) < d then n / d
  else if d < 2 * (n % d) then n / d + 1
  else n / d + n / d % 2

/-- `m * 2 ^ e`, with so many decimals. -/
def decimal (digits m : Nat) (e : Int) : Text :=
  let n := if 0 ≤ e then m * 2 ^ e.toNat * 10 ^ digits else roundDiv (m * 10 ^ digits) (2 ^ (-e).toNat)
  let decimals := Nat.toDigits 10 (n % 10 ^ digits)
  Nat.toDigits 10 (n / 10 ^ digits) ++ '.' :: (List.replicate (digits - decimals.length) '0' ++ decimals)

open Float.Model.UnpackedFloat in
def signText : Sign → Text
  | .negative => ['-']
  | .positive => []

/-- `%f`, or `%.2f` for two digits. -/
def floatText (digits : Nat) (x : Float) : Text :=
  match x.toModel.unpack with
  | .infinity sign               => signText sign ++ ['i', 'n', 'f']
  | .notANumber                  => ['n', 'a', 'n']
  | .zero sign                   => signText sign ++ decimal digits 0 0
  | .finite sign mantissa e _    => signText sign ++ decimal digits mantissa e

inductive Arg
  | s (text : Text)
  | llu (n : UInt64)
  | i (n : Int)
  | f (x : Float)

/-- Every call has arguments that fit its format. -/
def printf : Text → List Arg → Text
  | '%' :: 's' :: fmt,               .s text :: args => text ++ printf fmt args
  | '%' :: 'i' :: fmt,               .i n :: args    => FileUtils.toString n ++ printf fmt args
  | '%' :: 'l' :: 'l' :: 'u' :: fmt, .llu n :: args  => Nat.toDigits 10 n.toNat ++ printf fmt args
  | '%' :: 'f' :: fmt,               .f x :: args    => floatText 6 x ++ printf fmt args
  | '%' :: '.' :: '2' :: 'f' :: fmt, .f x :: args    => floatText 2 x ++ printf fmt args
  | c :: fmt,                        args            => c :: printf fmt args
  | [],                              _               => []

section
variable (fmt : Text) (args : List Arg)

@[simp] theorem printf_nil : printf [] args = [] := rfl

@[simp] theorem printf_s (text : Text) : printf ('%' :: 's' :: fmt) (.s text :: args) = text ++ printf fmt args := rfl

@[simp] theorem printf_i (n : Int) :
    printf ('%' :: 'i' :: fmt) (.i n :: args) = FileUtils.toString n ++ printf fmt args := rfl

@[simp] theorem printf_llu (n : UInt64) :
    printf ('%' :: 'l' :: 'l' :: 'u' :: fmt) (.llu n :: args) = Nat.toDigits 10 n.toNat ++ printf fmt args := rfl

@[simp] theorem printf_f (x : Float) : printf ('%' :: 'f' :: fmt) (.f x :: args) = floatText 6 x ++ printf fmt args := rfl

@[simp] theorem printf_f2 (x : Float) :
    printf ('%' :: '.' :: '2' :: 'f' :: fmt) (.f x :: args) = floatText 2 x ++ printf fmt args := rfl

/-- What is no conversion is printed as it is. -/
@[simp] theorem printf_cons {c : Char} (h : c ≠ '%') : printf (c :: fmt) args = c :: printf fmt args := by
  rw [printf]
  all_goals
    intros
    contradiction

end

/-! ## The handler -/

/-- An `unordered_map<string, uint64_t>`, in the order of its iteration. -/
abbrev Stats := List (Text × UInt64)

/-- `stats[key]` -/
def Stats.get (stats : Stats) (key : Text) : UInt64 := (stats.lookup key).getD 0

/-- `stats[key] = value` -/
def Stats.set (stats : Stats) (key : Text) (value : UInt64) : Stats :=
  if stats.any (·.1 == key) then stats.map (fun x => if x.1 = key then (key, value) else x) else stats ++ [(key, value)]

structure PacketCounts where
  period : Float
  counts : List (UInt64 × UInt64)

/-- What the handler asks for: `get_statistics()`, `get_packet_rates(-period, period)` (null if there are none), and
each mask counter with its `get_stats(period)`. -/
structure Node where
  stats     : List Stats
  packets   : Option PacketCounts
  maskStats : List ((Int × Text) × List (Text × Float32))

structure MetricStat where
  key    : Text
  metric : Text
  help   : Text := []
  type   : Text := "gauge".toList

def ms : List MetricStat :=
  [{ key := "network_thread_waiting_ms".toList, metric := "l1_network_thread_wait_ms".toList
     help := "Cumulative milliseconds spent waiting in the UDP packet-receiving thread".toList },
   { key := "network_thread_working_ms".toList, metric := "l1_network_thread_work_ms".toList
     help := "Cumulative milliseconds spent working in the UDP packet-receiving thread".toList },
   { key := "count_bytes_received".toList, metric := "l1_assembler_received_bytes".toList
     help := "Number of bytes received on this L1 UDP socket".toList },
   { key := "count_packets_received".toList, metric := "l1_assembler_received_packets".toList
     help := "Number of packets received on this L1 UDP socket".toList },
   { key := "count_packets_good".toList, metric := "l1_assembler_good_packets".toList
     help := "Number of valid packets received on this L1 UDP socket".toList },
   { key := "count_assembler_hits".toList, metric := "l1_assembler_hits_packets".toList
     help := "Number of packets received in order at the L1 assembler".toList },
   { key := "count_assembler_misses".toList, metric := "l1_assembler_misses_packets".toList
     help := "Number of packets received out of order at the L1 assembler".toList },
   { key := "count_assembler_drops".toList, metric := "l1_assembler_dropped_chunks".toList
     help := "Number of data chunks dropped by the L1 assembler".toList },
   { key := "count_assembler_queued".toList, metric := "l1_assembler_queued".toList
     help := "Number of data chunks sent downstream by the L1 assembler".toList },
   { key := "streaming_n_beams".toList, metric := "l1_streaming_beams_count".toList
     help := "Streaming data to disk: number of beams being written".toList },
   { key := "memory_pool_slab_size_bytes".toList, metric := "l1_memorypool_capacity_bytes".toList
     help := "Number of bytes total capacity in memory pool".toList },
   { key := "memory_pool_slab_avail_bytes".toList, metric := "l1_memorypool_avail_bytes".toList
     help := "Number of bytes available (free) in memory pool".toList },
   { key := "memory_pool_slab_size".toList, metric := "l1_memorypool_capacity_slabs".toList
     help := "Total capacity in memory pool, in 'slabs'".toList },
   { key := "memory_pool_slab_avail".toList, metric := "l1_memorypool_avail_slabs".toList
     help := "Available number in memory pool, in 'slabs'".toList }]

def ms2 : List MetricStat :=
  [{ key := "count_packets_bad".toList, metric := "malformed".toList },
   { key := "count_packets_dropped".toList, metric := "bufferfull".toList },
   { key := "count_packets_beam_id_mismatch".toList, metric := "beamidmismatch".toList },
   { key := "count_packets_stream_mismatch".toList, metric := "formatmismatch".toList }]

def ms3 : List MetricStat :=
  [{ key := "ringbuf_fpga_min".toList, metric := "l1_ringbuf_min_fpga".toList
     help := "Smallest FPGA-counts timestamp in the ring buffer".toList },
   { key := "ringbuf_fpga_max".toList, metric := "l1_ringbuf_max_fpga".toList
     help := "Largest FPGA-counts timestamp in the ring buffer".toList },
   { key := "ringbuf_capacity".toList, metric := "l1_ringbuf_capacity_chunks".toList
     help := "Maximum number of chunks of data in the ring buffer".toList },
   { key := "ringbuf_ntotal".toList, metric := "l1_ringbuf_size_chunks".toList
     help := "Current number of chunks of data in the ring buffer".toList }]

def ms4 : List MetricStat :=
  [{ key := "streaming_bytes_written".toList, metric := "l1_streaming_written_bytes".toList
     help := "Streaming data to disk: number of bytes written".toList },
   { key := "streaming_chunks_written".toList, metric := "l1_streaming_written_chunks".toList
     help := "Streaming data to disk: number of chunks of data written".toList }]

def ms5 : List MetricStat :=
  [{ key := "rfi_mask_pct_masked".toList, metric := "rfi_mask_pct_masked".toList
     help := "Total fraction of samples masked".toList }]

def badPackets : MetricStat where
  key    := []
  metric := "l1_assembler_bad_packets".toList
  help   := "Number of invalid packets received on L1 UDP socket".toList

def queuedChunks : MetricStat where
  key    := "output_chunks_queued_".toList
  metric := "l1_write_queued_chunks".toList
  help   := "Number of chunks of data queued for writing to a filesystem".toList

def senders : MetricStat where
  key    := []
  metric := "l1_l0_senders_nodes".toList
  help   := "Number of L0 nodes that are sending data to this L1 node".toList

def sendersPackets : MetricStat where
  key    := []
  metric := "l1_l0_senders_packets".toList
  help   := "Total number of packets sent by L0 nodes to this L1 node in this sampling period".toList

def sendersPeriod : MetricStat where
  key    := []
  metric := "l1_l0_senders_period".toList
  help   := "Sampling period for packets sent by L0 nodes to this L1 node".toList

def sendersRate : MetricStat where
  key    := []
  metric := "l1_l0_senders_packetrate".toList
  help   := "Total number of packets per second sent from L0 nodes to this L1 node in this sampling period".toList

/-- `sstats`: the statistics of the stream, with what is derived from them. -/
def streamStats (stats : Stats) : Stats :=
  let sstats := stats
  let sstats := sstats.set "network_thread_waiting_ms".toList (sstats.get "network_thread_waiting_usec".toList / 1000)
  let sstats := sstats.set "network_thread_working_ms".toList (sstats.get "network_thread_working_usec".toList / 1000)
  let sstats := sstats.set "assembler_thread_waiting_ms".toList (sstats.get "assembler_thread_waiting_usec".toList / 1000)
  let sstats := sstats.set "assembler_thread_working_ms".toList (sstats.get "assembler_thread_working_usec".toList / 1000)
  let slabBytes := sstats.get "memory_pool_slab_nbytes".toList
  let sstats := sstats.set "memory_pool_slab_size_bytes".toList (sstats.get "memory_pool_slab_size".toList * slabBytes)
  sstats.set "memory_pool_slab_avail_bytes".toList (sstats.get "memory_pool_slab_avail".toList * slabBytes)

/-- `total_packets` and `n_nodes` -/
def sumPackets (packets : PacketCounts) : Float × UInt64 :=
  packets.counts.foldl (fun x c => if c.2 = 0 then x else (x.1 + c.2.toFloat, x.2 + 1)) (0, 0)

/-- `(int)` of an unsigned number. -/
def toInt (n : UInt64) : Int := n.toUInt32.toInt32.toInt

def beamId (bstats : Stats) : Int := toInt (bstats.get "beam_id".toList)

/-- `stringprintf("%s_level%i", key, lev)` -/
def levelKey (key : Text) (lev : Int) : Text := printf "%s_level%i".toList [.s key, .i lev]

def httpHeader : Text :=
  "HTTP/1.1 200 OK\r\nContent-Type: text/plain\r\nConnection: close\r\n\r\n".toList

def printHeader (m : MetricStat) : Text :=
  printf "# HELP %s %s\n# TYPE %s %s\n".toList [.s m.metric, .s m.help, .s m.metric, .s m.type]

/-- The same, where the type stands in the format. -/
def printGaugeHeader (m : MetricStat) : Text :=
  printf "# HELP %s %s\n# TYPE %s gauge\n".toList [.s m.metric, .s m.help, .s m.metric]

def printStreamStat (sstats : Stats) (m : MetricStat) : Text :=
  printf "# HELP %s %s\n# TYPE %s %s\n%s %llu\n".toList
    [.s m.metric, .s m.help, .s m.metric, .s m.type, .s m.metric, .llu (sstats.get m.key)]

def printBadPackets (sstats : Stats) : Text :=
  printGaugeHeader badPackets ++ ms2.flatMap (fun m =>
    printf "%s\x7breason=\"%s\"\x7d %llu\n".toList [.s badPackets.metric, .s m.metric, .llu (sstats.get m.key)])

def printQueuedChunks (sstats : Stats) : Text :=
  printGaugeHeader queuedChunks ++ sstats.flatMap (fun it =>
    if it.1.take queuedChunks.key.length ≠ queuedChunks.key then []
    else printf "%s\x7bdevice=\"%s\"\x7d %llu\n".toList
      [.s queuedChunks.metric, .s (it.1.drop queuedChunks.key.length), .llu it.2])

def printSenders (packets : Option PacketCounts) : Text :=
  let (total, nNodes) := (packets.map sumPackets).getD (0, 0)
  let period := (packets.map (·.period)).getD 15
  let format := "# HELP %s %s\n# TYPE %s gauge\n%s %llu\n".toList
  let formatF := "# HELP %s %s\n# TYPE %s gauge\n%s %f\n".toList
  let names := fun m : MetricStat => [Arg.s m.metric, .s m.help, .s m.metric, .s m.metric]
  printf format (names senders ++ [.llu nNodes]) ++
    printf format (names sendersPackets ++ [.llu total.toUInt64]) ++
    printf formatF (names sendersPeriod ++ [.f period]) ++
    printf formatF (names sendersRate ++ [.f (if period == 0 then 0 else total / period)])

def printBeamStat (stats : List Stats) (m : MetricStat) : Text :=
  printHeader m ++ (stats.drop 2).flatMap (fun bstats =>
    printf "%s\x7bbeam=\"%i\"\x7d %llu\n".toList [.s m.metric, .i (beamId bstats), .llu (bstats.get m.key)])

def printLevelStat (stats : List Stats) (m : MetricStat) : Text :=
  printHeader m ++ (stats.drop 2).flatMap (fun bstats =>
    let nlev := toInt (bstats.get "ringbuf_nlevels".toList)
    printf "%s\x7bbeam=\"%i\",level=\"0\"\x7d %llu\n".toList [.s m.metric, .i (beamId bstats), .llu (bstats.get m.key)] ++
      (List.range' 1 (nlev - 1).toNat).flatMap (fun lev : Nat =>
        printf "%s\x7bbeam=\"%i\",level=\"%i\"\x7d %llu\n".toList
          [.s m.metric, .i (beamId bstats), .i lev, .llu (bstats.get (levelKey m.key lev))]))

def printMaskStat (maskStats : List ((Int × Text) × List (Text × Float32))) (m : MetricStat) : Text :=
  printHeader m ++ maskStats.flatMap (fun it =>
    printf "%s\x7bbeam=\"%i\",where=\"%s\"\x7d %.2f\n".toList
      [.s m.metric, .i it.1.1, .s it.1.2, .f ((it.2.lookup m.key).getD 0).toFloat])

/-- `handleGet`.  `none`: there is no `stats[0]`. -/
def handleGet (node : Node) : Option Text := do
  let stats0 ← node.stats[0]?
  let sstats := streamStats stats0
  return httpHeader ++ (ms.flatMap (printStreamStat sstats) ++ printBadPackets sstats ++ printQueuedChunks sstats ++
    printSenders node.packets ++ ms4.flatMap (printBeamStat node.stats) ++ ms3.flatMap (printLevelStat node.stats) ++
    if node.maskStats.length = 0 then [] else ms5.flatMap (printMaskStat node.maskStats))

end Prometheus
end FrbL1
