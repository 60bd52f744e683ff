import FrbL1.AcqInventory
import FrbL1.Blocks
import FrbL1.L0Streams
import FrbL1.L1Server
/-!
# NodeConfigs — the configuration files of the production nodes

`make_l1_configs.py`: from a file that says which nodes are up it writes a configuration file for each of these nodes,
with eight beams that are numbered from node to node.  The names of racks are ASCII, for `lower()`.
-/
namespace FrbL1
namespace NodeConfigs

open Blocks (IsPartition row_div row_mod)
open Config (vrange)
open Inventory (strLe)

abbrev Name := List Char

/-- `l1_node_status.yaml`: the racks, their nodes, and 0 for a node that is down. -/
abbrev NodeStatus := List (Name × List (Name × Int))

inductive Value
  | int (n : Int)
  | float (x : ℚ) (repr : List Char)
  | bool (b : Bool)
  | str (s : List Char)
  | ints (ns : List Int)
  | strs (ss : List (List Char))

abbrev Info := List (String × Value)

/-- `info[k] = v` -/
def Info.set (k : String) (v : Value) : Info → Info
  | []     => [(k, v)]
  | x :: d => if x.1 = k then (k, v) :: d else x :: Info.set k v d

def updateBeamIds (info : Info) (beamOffset : Int) : Info :=
  info.set "beam_ids" (.ints (vrange beamOffset (beamOffset + 8)))

/-- The dictionary at the start of `main`, with these beams. -/
def info (beamIds : List Int) : Info :=
  [("nbeams", .int 8), ("nfreq", .int 16384), ("nrfifreq", .int 1024), ("nt_per_packet", .int 16),
   ("nt_align", .int 4096), ("beam_ids", .ints beamIds), ("intensity_prescale", .float (1 / 10000) "0.0001".toList),
   ("ipaddr", .strs ["eno1".toList, "eno2".toList]), ("port", .int 1313),
   ("rpc_address", .strs ["tcp://eno1:5555".toList, "tcp://eno2:5555".toList]),
   ("prometheus_address", .strs ["eno1:8888".toList, "eno2:8888".toList]),
   ("frame0_url", .str "http://carillon.chime:54321/get-frame0-time".toList),
   ("output_devices", .strs ["/frb-archiver-1".toList, "/frb-archiver-2".toList]), ("slow_kernels", .bool false),
   ("assembled_ringbuf_nsamples", .int 10000), ("telescoping_ringbuf_nsamples", .ints [60000, 120000, 240000]),
   ("write_staging_area_gb", .float 19 "19.0".toList),
   ("l1b_executable_filename", .str "../ch_frb_L1b/ch-frb-l1b.py".toList),
   ("l1b_buffer_nsamples", .int 4000), ("l1b_pipe_timeout", .int 0)]

/-- `keys.sort()` -/
def sort (keys : List Name) : List Name := keys.insertionSort (fun x y => strLe x y = true)

namespace NodeStatus

variable (s : NodeStatus)

def racks : List Name := sort (s.map (·.1))

def nodes (rack : Name) : List (Name × Int) := (List.lookup rack s).getD []

def statuses (rack : Name) : List Int :=
  (sort ((nodes s rack).map (·.1))).map (fun node => ((nodes s rack).lookup node).getD 0)

def nodeStatus : List Int := (racks s).flatMap (statuses s)

end NodeStatus

/-- The variables of the loop, and the files, the last one first. -/
structure State where
  info       : Info
  beamOffset : Int
  files      : List (Name × Info)

def State.init : State := ⟨NodeConfigs.info [0, 1, 2, 3, 4, 5, 6, 7], 0, []⟩

def fileName (rack : Char) (node : Nat) : Name :=
  "l1_production_8beam_rack".toList ++ rack.toLower :: ("_node".toList ++ (Nat.toDigits 10 node ++ ".yaml".toList))

/-- `if status: …` -/
def State.node (rack : Char) (node : Nat) (status : Int) (s : State) : State :=
  if status ≠ 0 then
    let info := updateBeamIds s.info s.beamOffset
    let beamOffset := s.beamOffset + 8
    let beamOffset := if beamOffset ∈ [256, 1256, 2256] then beamOffset + (1000 - 256) else beamOffset
    { info, beamOffset, files := (fileName rack node, info) :: s.files }
  else s

/-- The loop over the nodes; an error is an `IndexError`, with what is written by then. -/
def loop (racks : List Name) : List Int → Nat → State → Except State State
  | [],                _, s => .ok s
  | status :: statuses, i, s =>
    match racks[i / 10]?.bind (·[4]?) with
    | some rack => loop racks statuses (i + 1) (s.node rack (i % 10) status)
    | none      => .error s

def main (s : NodeStatus) : Except State State := loop s.racks s.nodeStatus 0 .init

/-! ## Which nodes get a file -/

structure Place where
  rack   : Char
  node   : Nat
  status : Int

def Place.fileName (p : Place) : Name := NodeConfigs.fileName p.rack p.node

def letter (rack : Name) : Char := rack.getD 4 default

/-- The fifth letter tells the racks, also in lower case, and a rack has ten nodes. -/
structure NodeStatus.Regular (s : NodeStatus) : Prop where
  length : ∀ x ∈ s, 4 < x.1.length
  nodup  : (s.racks.map (fun rack => (letter rack).toLower)).Nodup
  ten    : ∀ x ∈ s, x.2.length = 10

/-- All nodes, in the order of the racks and in each rack in the order of their names. -/
def NodeStatus.places (s : NodeStatus) : List Place :=
  s.racks.flatMap (fun rack => (s.statuses rack).zipIdx.map (fun x => ⟨letter rack, x.2, x.1⟩))

def NodeStatus.active (s : NodeStatus) : List Place := s.places.filter (fun p => p.status ≠ 0)

/-- The first beam of the node `k`, of those that are up. -/
def firstBeam (k : Nat) : Int := 1000 * (min (k / 32) 3 : Nat) + 8 * (k - 32 * min (k / 32) 3 : Nat)

def beamIds (k : Nat) : List Int := vrange (firstBeam k) (firstBeam k + 8)

theorem updateBeamIds_info (ids : List Int) (beamOffset : Int) :
    updateBeamIds (info ids) beamOffset = info (vrange beamOffset (beamOffset + 8)) := by
  simp [updateBeamIds, info, Info.set]

theorem firstBeam_succ (k : Nat) : firstBeam (k + 1) = if firstBeam k + 8 ∈ ([256, 1256, 2256] : List Int) then
    firstBeam k + 8 + (1000 - 256) else firstBeam k + 8 := by
  simp only [firstBeam, List.mem_cons, List.not_mem_nil, or_false]
  split <;> omega

theorem mem_sort {k : Name} {keys : List Name} : k ∈ sort keys ↔ k ∈ keys := List.mem_insertionSort _

theorem length_sort (keys : List Name) : (sort keys).length = keys.length := List.length_insertionSort _ _

theorem lookup_mem {α β : Type} [BEq α] [LawfulBEq α] {k : α} {l : List (α × β)} (h : k ∈ l.map (·.1)) :
    ∃ v, l.lookup k = some v ∧ (k, v) ∈ l := by
  induction l with
  | nil => cases h
  | cons x l ih =>
    rw [List.lookup_cons]
    by_cases hx : k = x.1
    · subst hx
      exact ⟨x.2, by simp, by simp⟩
    · obtain ⟨v, hv, hmem⟩ := ih ((List.mem_cons.1 h).resolve_left hx)
      rw [beq_eq_false_iff_ne.2 hx]
      exact ⟨v, hv, List.mem_cons_of_mem _ hmem⟩

/-! ## The loop -/

theorem loop_rack {racks : List Name} {r : Nat} {rack : Name} (hr : racks[r]? = some rack) (hlong : 4 < rack.length)
    (rest : List Int) : ∀ (statuses : List Int) (node : Nat) (s : State), node + statuses.length ≤ 10 →
    loop racks (statuses ++ rest) (r * 10 + node) s = loop racks rest (r * 10 + (node + statuses.length))
      (((statuses.zipIdx node).map (fun x => Place.mk (letter rack) x.2 x.1)).foldl
        (fun s p => s.node p.rack p.node p.status) s)
  | [], _, _, _ => rfl
  | status :: statuses, node, s, h => by
    have hlt : node < 10 := by
      rw [List.length_cons] at h
      omega
    have hletter : racks[(r * 10 + node) / 10]?.bind (·[4]?) = some (letter rack) := by
      rw [row_div hlt, hr]
      exact (List.getElem?_eq_getElem hlong).trans (congrArg some (List.getElem_eq_getD default))
    have hrest := loop_rack hr hlong rest statuses (node + 1) (s.node (letter rack) node status) (by
      rw [List.length_cons] at h
      omega)
    rw [List.cons_append, loop, hletter]
    simp only
    rw [row_mod hlt, Nat.add_assoc, hrest, List.length_cons, Nat.add_right_comm, Nat.add_assoc node]
    rfl

theorem loop_racks {s : NodeStatus} (hlong : ∀ rack ∈ s.racks, 4 < rack.length)
    (hten : ∀ rack ∈ s.racks, (s.statuses rack).length = 10) : ∀ (racks before : List Name) (st : State),
    s.racks = before ++ racks → loop s.racks (racks.flatMap s.statuses) (before.length * 10) st =
      .ok ((racks.flatMap (fun rack => (s.statuses rack).zipIdx.map (fun x => Place.mk (letter rack) x.2 x.1))).foldl
        (fun st p => st.node p.rack p.node p.status) st)
  | [], _, _, _ => rfl
  | rack :: racks, before, st, h => by
    have hmem : rack ∈ s.racks := h ▸ List.mem_append_right _ List.mem_cons_self
    have hr : s.racks[before.length]? = some rack := by
      rw [h, List.getElem?_append_right (Nat.le_refl _), Nat.sub_self, List.getElem?_cons_zero]
    have hnext := loop_racks hlong hten racks (before ++ [rack])
      (((s.statuses rack).zipIdx.map (fun x => Place.mk (letter rack) x.2 x.1)).foldl
        (fun st p => st.node p.rack p.node p.status) st) (by rw [h, List.append_assoc, List.singleton_append])
    have hone := loop_rack hr (hlong rack hmem) (racks.flatMap s.statuses) (s.statuses rack) 0 st (by
      rw [hten rack hmem])
    rw [Nat.add_zero, Nat.zero_add, hten rack hmem] at hone
    rw [List.length_append, List.length_singleton, Nat.succ_mul] at hnext
    rw [List.flatMap_cons, List.flatMap_cons, List.foldl_append, hone, hnext]

/-- **What the nodes write**, from the beam on that is next. -/
theorem files_foldl : ∀ (ps : List Place) (k : Nat) (s : State), s.beamOffset = firstBeam k →
    (∃ ids, s.info = info ids) → (ps.foldl (fun s p => s.node p.rack p.node p.status) s).files =
      (((ps.filter (fun p => p.status ≠ 0)).zipIdx k).map (fun x => (x.1.fileName, info (beamIds x.2)))).reverse ++
        s.files
  | [], _, _, _, _ => rfl
  | p :: ps, k, s, hk, ⟨ids, hids⟩ => by
    by_cases hp : p.status ≠ 0
    · have hinfo : updateBeamIds s.info s.beamOffset = info (beamIds k) := by
        rw [hids, hk, updateBeamIds_info]
        rfl
      have hs : s.node p.rack p.node p.status =
          ⟨info (beamIds k), firstBeam (k + 1), (p.fileName, info (beamIds k)) :: s.files⟩ := by
        unfold State.node
        rw [if_pos hp, hinfo, hk, firstBeam_succ]
        rfl
      rw [List.foldl_cons, hs, files_foldl ps (k + 1) _ rfl ⟨_, rfl⟩, List.filter_cons_of_pos (by simpa using hp),
        List.zipIdx_cons, List.map_cons, List.reverse_cons, List.append_assoc, List.singleton_append]
    · have hs : s.node p.rack p.node p.status = s := if_neg hp
      rw [List.foldl_cons, hs, files_foldl ps k s hk ⟨ids, hids⟩, List.filter_cons_of_neg (by simpa using hp)]

def State.written (st : State) : List (Name × Info) := st.files.reverse

theorem main_eq {s : NodeStatus} (h : s.Regular) : ∃ st, main s = .ok st ∧
    st.written = s.active.zipIdx.map (fun x => (x.1.fileName, info (beamIds x.2))) := by
  have hrack : ∀ rack ∈ s.racks, ∃ nodes, List.lookup rack s = some nodes ∧ (rack, nodes) ∈ s :=
    fun rack hrack => lookup_mem (mem_sort.1 hrack)
  have hlong : ∀ rack ∈ s.racks, 4 < rack.length := fun rack hmem => by
    obtain ⟨nodes, -, hs⟩ := hrack rack hmem
    exact h.length _ hs
  have hten : ∀ rack ∈ s.racks, (s.statuses rack).length = 10 := fun rack hmem => by
    obtain ⟨nodes, hnodes, hs⟩ := hrack rack hmem
    rw [NodeStatus.statuses, List.length_map, length_sort, List.length_map, NodeStatus.nodes, hnodes]
    exact h.ten _ hs
  refine ⟨_, loop_racks hlong hten s.racks [] .init rfl, ?_⟩
  unfold State.written
  rw [← NodeStatus.places, files_foldl _ 0 .init rfl ⟨_, rfl⟩, State.init, List.append_nil, List.reverse_reverse]
  rfl

/-! ## The files' names -/

theorem fileName_inj {rack rack' : Char} {node node' : Nat} (h : fileName rack node = fileName rack' node') :
    rack.toLower = rack'.toLower ∧ node = node' := by
  obtain ⟨hrack, h⟩ := List.cons.inj (List.append_cancel_left h)
  exact ⟨hrack, Digits.inj (List.append_cancel_right (List.append_cancel_left h))⟩

theorem nodup_fileNames {s : NodeStatus} (h : s.Regular) : (s.active.map Place.fileName).Nodup := by
  have hnames : ∀ rack, ((s.statuses rack).zipIdx.map (fun x => Place.mk (letter rack) x.2 x.1)).map Place.fileName =
      (List.range' 0 (s.statuses rack).length).map (fileName (letter rack)) := fun rack => by
    rw [← List.zipIdx_map_snd 0, List.map_map, List.map_map]
    rfl
  have hplaces : (s.places.map Place.fileName).Nodup := by
    unfold NodeStatus.places
    rw [List.map_flatMap, List.nodup_flatMap]
    constructor
    · intro rack _
      rw [hnames]
      exact List.Nodup.map (fun node node' heq => (fileName_inj heq).2) List.nodup_range'
    · refine (List.pairwise_map.1 h.nodup).imp (fun {rack rack'} hne => ?_)
      show List.Disjoint _ _
      intro name hrack hrack'
      simp only [hnames] at hrack hrack'
      obtain ⟨node, -, rfl⟩ := List.mem_map.1 hrack
      obtain ⟨node', -, heq⟩ := List.mem_map.1 hrack'
      exact hne (fileName_inj heq).1.symm
  exact hplaces.sublist (List.filter_sublist.map _)

/-! ## The beams of the telescope -/

/-- Four columns of 256 beams. -/
def telescope : Set Int := {b | 0 ≤ b ∧ b / 1000 < 4 ∧ b % 1000 < 256}

/-- Column by column, the place of a beam. -/
def placeOf (b : Int) : Int := 256 * (b / 1000) + b % 1000

def firstBeams (n : Nat) : Set Int := {b | b ∈ telescope ∧ placeOf b < n}

theorem mem_beamIds {k : Nat} {b : Int} : b ∈ beamIds k ↔ firstBeam k ≤ b ∧ b < firstBeam k + 8 := L0.mem_vrange

theorem beamIds_partition {n : Nat} (hn : n ≤ 128) :
    IsPartition {k | k < n} (fun k => {b | b ∈ beamIds k}) (firstBeams (8 * n)) where
  subset := fun k hk b hb => by
    have hk : k < n := hk
    obtain ⟨hle, hlt⟩ := mem_beamIds.1 hb
    unfold firstBeam at hle hlt
    refine ⟨⟨by omega, by omega, by omega⟩, ?_⟩
    unfold placeOf
    omega
  unique := fun b hb => by
    obtain ⟨⟨h0, hcolumn, hrow⟩, hplace⟩ := hb
    unfold placeOf at hplace
    refine ⟨(placeOf b / 8).toNat, ⟨?_, mem_beamIds.2 ?_⟩, fun k hk => ?_⟩
    · show (placeOf b / 8).toNat < n
      unfold placeOf
      omega
    · unfold firstBeam placeOf
      omega
    · obtain ⟨hk, hb⟩ := hk
      have hk : k < n := hk
      obtain ⟨hle, hlt⟩ := mem_beamIds.1 hb
      unfold firstBeam at hle hlt
      unfold placeOf
      omega

def Info.beams (d : Info) : Set Int := {b | ∃ ns, d.lookup "beam_ids" = some (.ints ns) ∧ b ∈ ns}

theorem beams_info (ids : List Int) : (info ids).beams = {b | b ∈ ids} := by
  ext b
  constructor
  · rintro ⟨ns, hns, hb⟩
    obtain rfl : ids = ns := Value.ints.inj (Option.some.inj hns)
    exact hb
  · exact fun hb => ⟨ids, rfl, hb⟩

/-- What the file `k` says. -/
def State.beams (st : State) (k : Nat) : Set Int := {b | ∃ x, st.written[k]? = some x ∧ b ∈ x.2.beams}

theorem beams_eq {s : NodeStatus} {st : State}
    (hst : st.written = s.active.zipIdx.map (fun x => (x.1.fileName, info (beamIds x.2)))) {k : Nat}
    (hk : k < s.active.length) : st.beams k = {b | b ∈ beamIds k} := by
  have hget : st.written[k]? = some (s.active[k].fileName, info (beamIds k)) := by
    rw [hst, List.getElem?_map, List.getElem?_zipIdx, List.getElem?_eq_getElem hk]
    simp
  ext b
  constructor
  · rintro ⟨x, hx, hb⟩
    obtain rfl := Option.some.inj (hget.symm.trans hx)
    rwa [beams_info] at hb
  · intro hb
    refine ⟨_, hget, ?_⟩
    rwa [beams_info]

/-- **The configuration files of the nodes**: each node that is up gets one of its own, with eight beams.  They number
the beams of the telescope exactly if there is room for all of them. -/
theorem main_files {s : NodeStatus} (h : s.Regular) : ∃ st, main s = .ok st ∧ (st.files.map (·.1)).Nodup ∧
    st.written = s.active.zipIdx.map (fun x => (x.1.fileName, info (beamIds x.2))) ∧
    (IsPartition {k | k < s.active.length} st.beams (firstBeams (8 * s.active.length)) ↔ s.active.length ≤ 128) := by
  obtain ⟨st, hst, hwritten⟩ := main_eq h
  refine ⟨st, hst, ?_, hwritten, ?_, ?_⟩
  · have hnames : st.written.map (·.1) = s.active.map Place.fileName := by
      rw [hwritten, List.map_map, ← List.zipIdx_map_fst 0 s.active, List.map_map, List.zipIdx_map_fst]
      rfl
    rw [← List.nodup_reverse, ← List.map_reverse]
    exact hnames ▸ nodup_fileNames h
  · intro hpart
    by_contra hn
    have hk : 128 < s.active.length := by omega
    have hmem : firstBeam 128 ∈ st.beams 128 := by
      rw [beams_eq hwritten hk]
      exact mem_beamIds.2 ⟨le_refl _, by omega⟩
    have htelescope := (hpart.subset 128 hk hmem).1
    exact absurd htelescope.2.2 (by decide)
  · intro hn
    exact (beamIds_partition hn).congr (fun k hk => beams_eq hwritten hk)

/-! ## The status file of the repository -/

def production : NodeStatus :=
  "123456789ABCD".toList.map (fun rack => ("rack".toList ++ [rack], (List.range 10).map (fun node =>
    ("node".toList ++ Nat.toDigits 10 node, if rack = 'D' ∧ 7 ≤ node then 0 else 1))))

theorem production_regular : NodeStatus.Regular production where
  length := by decide +kernel
  nodup  := by decide +kernel
  ten    := by decide +kernel

theorem production_active : (NodeStatus.active production).length = 127 := by decide +kernel

theorem main_files_production : ∃ st, main production = .ok st ∧ (st.files.map (·.1)).Nodup ∧
    IsPartition {k | k < 127} st.beams (firstBeams (8 * 127)) := by
  obtain ⟨st, hst, hnodup, -, hpart⟩ := main_files production_regular
  rw [production_active] at hpart
  exact ⟨st, hst, hnodup, hpart.2 (by decide)⟩

end NodeConfigs
end FrbL1
