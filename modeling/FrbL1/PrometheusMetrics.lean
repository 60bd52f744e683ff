import FrbL1.Prometheus
/-!
# PrometheusMetrics — what a scraper takes from the page

The page of metrics of a node as families of samples (`families`), and when a scraper takes just these from what is
printed: if and only if no device and no place of a mask counter has a quote, a backslash or an end of line in its name
(`handleGet_exposes_iff`).
-/
namespace FrbL1
namespace Prometheus

open Exposition

/-! ## The families -/

def number (n : UInt64) : Text := Nat.toDigits 10 n.toNat

def MetricStat.family (m : MetricStat) (samples : List (List (Text × Text) × Text)) : Family :=
  ⟨m.metric, m.help, m.type, samples⟩

def device (it : Text × UInt64) : Option (Text × UInt64) :=
  if it.1.take queuedChunks.key.length ≠ queuedChunks.key then none
  else some (it.1.drop queuedChunks.key.length, it.2)

def devices (sstats : Stats) : List (Text × UInt64) := sstats.filterMap device

/-- The levels of the ring buffer of a beam, with a statistic of each. -/
def levels (bstats : Stats) (key : Text) : List (Int × UInt64) :=
  (0, bstats.get key) ::
    (List.range' 1 (toInt (bstats.get "ringbuf_nlevels".toList) - 1).toNat).map
      (fun lev : Nat => ((lev : Int), bstats.get (levelKey key lev)))

def beamLabel (n : Int) : Text × Text := ("beam".toList, FileUtils.toString n)

def beamFamily (stats : List Stats) (m : MetricStat) : Family :=
  m.family ((stats.drop 2).map (fun bstats => ([beamLabel (beamId bstats)], number (bstats.get m.key))))

def levelFamily (stats : List Stats) (m : MetricStat) : Family :=
  m.family ((stats.drop 2).flatMap (fun bstats => (levels bstats m.key).map (fun lev =>
    ([beamLabel (beamId bstats), ("level".toList, FileUtils.toString lev.1)], number lev.2))))

def maskFamily (maskStats : List ((Int × Text) × List (Text × Float32))) (m : MetricStat) : Family :=
  m.family (maskStats.map (fun it => ([beamLabel it.1.1, ("where".toList, it.1.2)],
    floatText 2 ((it.2.lookup m.key).getD 0).toFloat)))

def sendersFamilies (packets : Option PacketCounts) : List Family :=
  let sum := (packets.map sumPackets).getD (0, 0)
  let period := (packets.map (·.period)).getD 15
  [senders.family [([], number sum.2)],
    sendersPackets.family [([], number sum.1.toUInt64)],
    sendersPeriod.family [([], floatText 6 period)],
    sendersRate.family [([], floatText 6 (if period == 0 then 0 else sum.1 / period))]]

def families (node : Node) (stats0 : Stats) : List Family :=
  let sstats := streamStats stats0
  ms.map (fun m => m.family [([], number (sstats.get m.key))]) ++
    [badPackets.family (ms2.map (fun m => ([("reason".toList, m.metric)], number (sstats.get m.key)))),
      queuedChunks.family ((devices sstats).map (fun d => ([("device".toList, d.1)], number d.2)))] ++
    sendersFamilies node.packets ++ ms4.map (beamFamily node.stats) ++ ms3.map (levelFamily node.stats) ++
    if node.maskStats.length = 0 then [] else ms5.map (maskFamily node.maskStats)

/-! ## What is printed -/

theorem printHeader_eq (m : MetricStat) :
    printHeader m = (Entry.help m.metric m.help).text ++ (Entry.type m.metric m.type).text := by
  simp [printHeader, Entry.text, helpMark, typeMark]

theorem printGaugeHeader_eq (m : MetricStat) :
    printGaugeHeader m = (Entry.help m.metric m.help).text ++ (Entry.type m.metric "gauge".toList).text := by
  simp [printGaugeHeader, Entry.text, helpMark, typeMark]

theorem family_text (m : MetricStat) (samples : List (List (Text × Text) × Text)) :
    (m.family samples).text = (Entry.help m.metric m.help).text ++ (Entry.type m.metric m.type).text ++
      samples.flatMap (fun s => (Entry.sample ⟨m.metric, s.1, s.2⟩).text) := by
  simp [Family.text, Family.entries, MetricStat.family, List.flatMap_map]

theorem printStreamStat_eq (sstats : Stats) (m : MetricStat) :
    printStreamStat sstats m = (m.family [([], number (sstats.get m.key))]).text := by
  rw [family_text]
  simp [printStreamStat, Entry.text, helpMark, typeMark, labelsText, number]

theorem printBadPackets_eq (sstats : Stats) : printBadPackets sstats =
    (badPackets.family (ms2.map (fun m => ([("reason".toList, m.metric)], number (sstats.get m.key))))).text := by
  rw [family_text, printBadPackets, printGaugeHeader_eq, List.flatMap_map]
  simp [Entry.text, labelsText, pairsText, number, badPackets]

theorem printQueuedChunks_eq (sstats : Stats) : printQueuedChunks sstats =
    (queuedChunks.family ((devices sstats).map (fun d => ([("device".toList, d.1)], number d.2)))).text := by
  have hsamples : ∀ l : Stats, l.flatMap (fun it => if it.1.take queuedChunks.key.length ≠ queuedChunks.key then []
      else printf "%s\x7bdevice=\"%s\"\x7d %llu\n".toList
        [.s queuedChunks.metric, .s (it.1.drop queuedChunks.key.length), .llu it.2]) =
      (devices l).flatMap (fun d =>
        (Entry.sample ⟨queuedChunks.metric, [("device".toList, d.1)], number d.2⟩).text) := by
    intro l
    induction l with
    | nil => rfl
    | cons it l ih =>
      by_cases hkey : it.1.take queuedChunks.key.length = queuedChunks.key
      · have hdevices : devices (it :: l) = (it.1.drop queuedChunks.key.length, it.2) :: devices l :=
          List.filterMap_cons_some (f := device) (if_neg (not_not.2 hkey))
        rw [List.flatMap_cons, if_neg (not_not.2 hkey), ih, hdevices, List.flatMap_cons]
        simp [Entry.text, labelsText, pairsText, number]
      · have hdevices : devices (it :: l) = devices l := List.filterMap_cons_none (f := device) (if_pos hkey)
        rw [List.flatMap_cons, if_pos hkey, ih, hdevices, List.nil_append]
  rw [family_text, printQueuedChunks, printGaugeHeader_eq, List.flatMap_map, hsamples]
  rfl

theorem printGauge_eq {m : MetricStat} (hm : m.type = "gauge".toList) (n : UInt64) :
    printf "# HELP %s %s\n# TYPE %s gauge\n%s %llu\n".toList
      [.s m.metric, .s m.help, .s m.metric, .s m.metric, .llu n] = (m.family [([], number n)]).text := by
  rw [family_text, hm]
  simp [Entry.text, helpMark, typeMark, labelsText, number]

theorem printGaugeF_eq {m : MetricStat} (hm : m.type = "gauge".toList) (x : Float) :
    printf "# HELP %s %s\n# TYPE %s gauge\n%s %f\n".toList
      [.s m.metric, .s m.help, .s m.metric, .s m.metric, .f x] = (m.family [([], floatText 6 x)]).text := by
  rw [family_text, hm]
  simp [Entry.text, helpMark, typeMark, labelsText]

theorem printSenders_eq (packets : Option PacketCounts) :
    printSenders packets = (sendersFamilies packets).flatMap Family.text := by
  simp only [printSenders, sendersFamilies, List.flatMap_cons, List.flatMap_nil, List.cons_append, List.nil_append,
    List.append_nil, List.append_assoc]
  rw [printGauge_eq rfl, printGauge_eq rfl, printGaugeF_eq rfl, printGaugeF_eq rfl]

theorem printBeamStat_eq (stats : List Stats) (m : MetricStat) :
    printBeamStat stats m = (beamFamily stats m).text := by
  rw [beamFamily, family_text, printBeamStat, printHeader_eq, List.flatMap_map]
  simp [Entry.text, labelsText, pairsText, number, beamLabel]

theorem printLevelStat_eq (stats : List Stats) (m : MetricStat) :
    printLevelStat stats m = (levelFamily stats m).text := by
  have hzero : FileUtils.toString 0 = ['0'] := by decide
  rw [levelFamily, family_text, printLevelStat, printHeader_eq, List.flatMap_assoc]
  congr 1
  refine List.flatMap_congr (fun bstats _ => ?_)
  simp [Entry.text, labelsText, pairsText, number, beamLabel, levels, hzero, List.flatMap_map]

theorem printMaskStat_eq (maskStats : List ((Int × Text) × List (Text × Float32))) (m : MetricStat) :
    printMaskStat maskStats m = (maskFamily maskStats m).text := by
  rw [maskFamily, family_text, printMaskStat, printHeader_eq, List.flatMap_map]
  simp [Entry.text, labelsText, pairsText, beamLabel]

theorem flatMap_text {m : List MetricStat} {print : MetricStat → Text} {family : MetricStat → Family}
    (h : ∀ x, print x = (family x).text) : m.flatMap print = (m.map family).flatMap Family.text := by
  rw [List.flatMap_map]
  exact List.flatMap_congr (fun x _ => h x)

theorem handleGet_eq {node : Node} {stats0 : Stats} (h : node.stats[0]? = some stats0) :
    handleGet node = some (httpHeader ++ (families node stats0).flatMap Family.text) := by
  have hmask : (if node.maskStats.length = 0 then [] else ms5.flatMap (printMaskStat node.maskStats)) =
      (if node.maskStats.length = 0 then [] else ms5.map (maskFamily node.maskStats)).flatMap Family.text := by
    split
    · rfl
    · exact flatMap_text (printMaskStat_eq node.maskStats)
  simp only [handleGet, h, Option.bind_eq_bind, Option.bind_some]
  rw [flatMap_text (printStreamStat_eq (streamStats stats0)),
    printBadPackets_eq, printQueuedChunks_eq, printSenders_eq, flatMap_text (printBeamStat_eq node.stats),
    flatMap_text (printLevelStat_eq node.stats), hmask]
  simp only [families, List.flatMap_append, List.flatMap_cons, List.flatMap_nil, List.append_nil, List.append_assoc]
  rfl

/-! ## Names, labels and values -/

theorem isValue_of_digits {v : Text} (hne : v ≠ [])
    (hv : ∀ c ∈ v, c.isDigit = true ∨ c ∈ ['-', '.', 'i', 'n', 'f', 'a']) : IsValue v where
  nonempty := hne
  no_blank := fun h => absurd (hv _ h) (by decide)
  no_end   := fun h => absurd (hv _ h) (by decide)

theorem isValue_number (n : UInt64) : IsValue (number n) :=
  isValue_of_digits Nat.toDigits_ne_nil (fun _ hc => .inl (Digits.isDigit_of_mem hc))

theorem isValue_floatText (digits : Nat) (x : Float) : IsValue (floatText digits x) := by
  have hsign : ∀ sign, ∀ c ∈ signText sign, c ∈ ['-', '.', 'i', 'n', 'f', 'a'] := by
    intro sign
    cases sign <;> simp [signText]
  have hdecimal : ∀ m e, ∀ c ∈ decimal digits m e, c.isDigit = true ∨ c ∈ ['-', '.', 'i', 'n', 'f', 'a'] := by
    intro m e c hc
    simp only [decimal, List.mem_append, List.mem_cons] at hc
    rcases hc with hc | rfl | hc | hc
    · exact .inl (Digits.isDigit_of_mem hc)
    · exact .inr (by decide)
    · exact .inl (List.eq_of_mem_replicate hc ▸ rfl)
    · exact .inl (Digits.isDigit_of_mem hc)
  have hne : ∀ m e, decimal digits m e ≠ [] := fun m e h => by simp [decimal] at h
  have hinf : ∀ c ∈ ['i', 'n', 'f'], c ∈ ['-', '.', 'i', 'n', 'f', 'a'] := by simp
  unfold floatText
  split
  · exact isValue_of_digits (by simp) (fun c hc => .inr ((List.mem_append.1 hc).elim (hsign _ c) (hinf c)))
  · exact isValue_of_digits (by simp) (by simp)
  · exact isValue_of_digits (by simp [hne]) (fun c hc => (List.mem_append.1 hc).elim (.inr ∘ hsign _ c) (hdecimal _ _ c))
  · exact isValue_of_digits (by simp [hne]) (fun c hc => (List.mem_append.1 hc).elim (.inr ∘ hsign _ c) (hdecimal _ _ c))

theorem clean_toString (n : Int) : Clean (FileUtils.toString n) := by
  intro c hc
  have hmem : ∀ d : Char, d.isDigit = false → d ≠ '-' → c ≠ d := by
    rintro d hd hminus rfl
    exact FileUtils.not_mem_setw hd hminus 0 n (List.mem_append_right _ hc)
  exact ⟨hmem _ rfl (by decide), hmem _ rfl (by decide), hmem _ rfl (by decide)⟩

theorem toString_inj {m n : Int} (h : FileUtils.toString m = FileUtils.toString n) : m = n := by
  rw [← FileUtils.formatInt_one, ← FileUtils.formatInt_one] at h
  exact FileUtils.formatInt_injective 1 h

structure MetricStat.Good (m : MetricStat) : Prop where
  metric : IsName m.metric
  help   : '\n' ∉ m.help
  type   : '\n' ∉ m.type

theorem good_of_literals {key name help type : Text} (h : IsName name ∧ '\n' ∉ help ∧ '\n' ∉ type) : MetricStat.Good
    ⟨key, (String.ofList name).toList, (String.ofList help).toList, (String.ofList type).toList⟩ := by
  simp only [String.toList_ofList]
  exact ⟨h.1, h.2.1, h.2.2⟩

def metrics : List MetricStat :=
  ms ++ [badPackets, queuedChunks] ++ [senders, sendersPackets, sendersPeriod, sendersRate] ++ ms4 ++ ms3 ++ ms5

theorem good_ms : ∀ m ∈ ms, m.Good := by
  simp only [ms, List.forall_mem_cons, List.not_mem_nil, false_implies, implies_true, and_true]
  and_intros <;> exact good_of_literals (by decide)

theorem good_ms3 : ∀ m ∈ ms3, m.Good := by
  simp only [ms3, List.forall_mem_cons, List.not_mem_nil, false_implies, implies_true, and_true]
  and_intros <;> exact good_of_literals (by decide)

theorem good_ms4 : ∀ m ∈ ms4, m.Good := by
  simp only [ms4, List.forall_mem_cons, List.not_mem_nil, false_implies, implies_true, and_true]
  and_intros <;> exact good_of_literals (by decide)

theorem good_ms5 : ∀ m ∈ ms5, m.Good := by
  simp only [ms5, List.forall_mem_cons, List.not_mem_nil, false_implies, implies_true, and_true]
  exact good_of_literals (by decide)

theorem good_badPackets : badPackets.Good := good_of_literals (by decide)

theorem good_queuedChunks : queuedChunks.Good := good_of_literals (by decide)

theorem good_senders : ∀ m ∈ [senders, sendersPackets, sendersPeriod, sendersRate], m.Good := by
  simp only [List.forall_mem_cons, List.not_mem_nil, false_implies, implies_true, and_true]
  and_intros <;> exact good_of_literals (by decide)

theorem nodup_metrics : (metrics.map (·.metric)).Nodup := by
  obtain ⟨names, h, hnodup⟩ : ∃ names, Literals (metrics.map (·.metric)) names ∧ names.Nodup :=
    ⟨_, by repeat constructor, by decide +kernel⟩
  rw [h.eq]
  exact hnodup

theorem families_forall {P : Family → Prop} (node : Node) (stats0 : Stats)
    (hms : ∀ m ∈ ms, P (m.family [([], number ((streamStats stats0).get m.key))]))
    (hbad : P (badPackets.family (ms2.map (fun m =>
      ([("reason".toList, m.metric)], number ((streamStats stats0).get m.key))))))
    (hqueued : P (queuedChunks.family ((devices (streamStats stats0)).map (fun d =>
      ([("device".toList, d.1)], number d.2)))))
    (hsenders : ∀ m ∈ [senders, sendersPackets, sendersPeriod, sendersRate], ∀ v, IsValue v → P (m.family [([], v)]))
    (hbeam : ∀ m ∈ ms4, P (beamFamily node.stats m)) (hlevel : ∀ m ∈ ms3, P (levelFamily node.stats m))
    (hmask : ∀ m ∈ ms5, P (maskFamily node.maskStats m)) : ∀ f ∈ families node stats0, P f := by
  intro f hf
  simp only [families, List.mem_append, List.mem_map] at hf
  rcases hf with ((((⟨m, hm, rfl⟩ | hf) | hf) | ⟨m, hm, rfl⟩) | ⟨m, hm, rfl⟩) | hf
  · exact hms m hm
  · rcases List.mem_cons.1 hf with rfl | hf
    · exact hbad
    · obtain rfl := List.mem_singleton.1 hf
      exact hqueued
  · simp only [sendersFamilies, List.mem_cons, List.not_mem_nil, or_false] at hf
    rcases hf with rfl | rfl | rfl | rfl
    · exact hsenders _ (by simp) _ (isValue_number _)
    · exact hsenders _ (by simp) _ (isValue_number _)
    · exact hsenders _ (by simp) _ (isValue_floatText 6 _)
    · exact hsenders _ (by simp) _ (isValue_floatText 6 _)
  · exact hbeam m hm
  · exact hlevel m hm
  · split at hf
    · cases hf
    · obtain ⟨m, hm, rfl⟩ := List.mem_map.1 hf
      exact hmask m hm

theorem printable_family {m : MetricStat} (hm : m.Good) {samples : List (List (Text × Text) × Text)}
    (hlabels : ∀ s ∈ samples, ∀ l ∈ s.1, IsName l.1) (hvalues : ∀ s ∈ samples, IsValue s.2) :
    (m.family samples).Printable :=
  ⟨hm.metric, hm.help, hm.type, hlabels, hvalues⟩

theorem printable_single {m : MetricStat} (hm : m.Good) {v : Text} (hv : IsValue v) :
    (m.family [([], v)]).Printable :=
  printable_family hm (by simp) (by simpa using hv)

theorem isName_beamLabel (n : Int) : IsName (beamLabel n).1 := isName_literal (by decide)

theorem printable_families (node : Node) (stats0 : Stats) : ∀ f ∈ families node stats0, f.Printable := by
  apply families_forall
  · exact fun m hm => printable_single (good_ms m hm) (isValue_number _)
  · refine printable_family good_badPackets (fun s hs l hl => ?_) (fun s hs => ?_)
    · obtain ⟨m, -, rfl⟩ := List.mem_map.1 hs
      obtain rfl := List.mem_singleton.1 hl
      exact isName_literal (by decide)
    · obtain ⟨m, -, rfl⟩ := List.mem_map.1 hs
      exact isValue_number _
  · refine printable_family good_queuedChunks (fun s hs l hl => ?_) (fun s hs => ?_)
    · obtain ⟨d, -, rfl⟩ := List.mem_map.1 hs
      obtain rfl := List.mem_singleton.1 hl
      exact isName_literal (by decide)
    · obtain ⟨d, -, rfl⟩ := List.mem_map.1 hs
      exact isValue_number _
  · exact fun m hm v hv => printable_single (good_senders m hm) hv
  · intro m hm
    refine printable_family (good_ms4 m hm) (fun s hs l hl => ?_) (fun s hs => ?_)
    · obtain ⟨bstats, -, rfl⟩ := List.mem_map.1 hs
      obtain rfl := List.mem_singleton.1 hl
      exact isName_beamLabel _
    · obtain ⟨bstats, -, rfl⟩ := List.mem_map.1 hs
      exact isValue_number _
  · intro m hm
    refine printable_family (good_ms3 m hm) (fun s hs l hl => ?_) (fun s hs => ?_)
    · obtain ⟨bstats, -, hs⟩ := List.mem_flatMap.1 hs
      obtain ⟨lev, -, rfl⟩ := List.mem_map.1 hs
      rcases List.mem_cons.1 hl with rfl | hl
      · exact isName_beamLabel _
      · obtain rfl := List.mem_singleton.1 hl
        exact isName_literal (by decide)
    · obtain ⟨bstats, -, hs⟩ := List.mem_flatMap.1 hs
      obtain ⟨lev, -, rfl⟩ := List.mem_map.1 hs
      exact isValue_number _
  · intro m hm
    refine printable_family (good_ms5 m hm) (fun s hs l hl => ?_) (fun s hs => ?_)
    · obtain ⟨it, -, rfl⟩ := List.mem_map.1 hs
      rcases List.mem_cons.1 hl with rfl | hl
      · exact isName_beamLabel _
      · obtain rfl := List.mem_singleton.1 hl
        exact isName_literal (by decide)
    · obtain ⟨it, -, rfl⟩ := List.mem_map.1 hs
      exact isValue_floatText 2 _

/-! ## No series twice -/

/-- The keys of the maps are distinct, and so are the beams. -/
structure Node.Distinct (node : Node) (stats0 : Stats) : Prop where
  keys     : (stats0.map (·.1)).Nodup
  beams    : ((node.stats.drop 2).map beamId).Nodup
  counters : (node.maskStats.map (·.1)).Nodup

theorem devices_set (stats : Stats) {key : Text} (h : key.take queuedChunks.key.length ≠ queuedChunks.key)
    (value : UInt64) : devices (stats.set key value) = devices stats := by
  have hnone : ∀ v, device (key, v) = none := fun v => if_pos h
  unfold Stats.set devices
  split
  · rw [List.filterMap_map]
    refine List.filterMap_congr (fun it _ => ?_)
    show device (if it.1 = key then (key, value) else it) = device it
    split
    · rename_i heq
      obtain ⟨k, v⟩ := it
      obtain rfl := heq
      rw [hnone, hnone]
    · rfl
  · rw [List.filterMap_append, List.filterMap_cons_none (hnone value), List.filterMap_nil, List.append_nil]

theorem devices_streamStats (stats : Stats) : devices (streamStats stats) = devices stats := by
  unfold streamStats
  simp only
  rw [devices_set _ (by decide +kernel), devices_set _ (by decide +kernel), devices_set _ (by decide +kernel),
    devices_set _ (by decide +kernel), devices_set _ (by decide +kernel), devices_set _ (by decide +kernel)]

theorem device_eq_some {it d : Text × UInt64} : device it = some d ↔ it = (queuedChunks.key ++ d.1, d.2) := by
  unfold device
  constructor
  · intro h
    split at h
    · cases h
    · rename_i hkey
      obtain rfl := Option.some.inj h
      have heq : queuedChunks.key ++ it.1.drop queuedChunks.key.length = it.1 :=
        (congrArg (· ++ it.1.drop queuedChunks.key.length) (not_not.1 hkey)).symm.trans (List.take_append_drop _ _)
      exact Prod.ext heq.symm rfl
  · rintro rfl
    rw [if_neg (by rw [List.take_left]; exact not_not.2 rfl), List.drop_left]

theorem mem_devices {stats : Stats} {d : Text × UInt64} :
    d ∈ devices stats ↔ (queuedChunks.key ++ d.1, d.2) ∈ stats := by
  unfold devices
  simp only [List.mem_filterMap, device_eq_some, exists_eq_right]

theorem nodup_devices {stats : Stats} (h : (stats.map (·.1)).Nodup) : ((devices stats).map (·.1)).Nodup := by
  induction stats with
  | nil => exact List.nodup_nil
  | cons it l ih =>
    rw [List.map_cons, List.nodup_cons] at h
    unfold devices
    cases hdevice : device it with
    | none =>
      rw [List.filterMap_cons_none hdevice]
      exact ih h.2
    | some d =>
      rw [List.filterMap_cons_some hdevice, List.map_cons, List.nodup_cons]
      refine ⟨fun hmem => h.1 ?_, ih h.2⟩
      obtain ⟨d', hd', heq⟩ := List.mem_map.1 hmem
      obtain rfl := device_eq_some.1 hdevice
      exact List.mem_map.2 ⟨_, mem_devices.1 hd', congrArg (queuedChunks.key ++ ·) heq⟩

theorem names_families (node : Node) (stats0 : Stats) :
    ((families node stats0).map (·.name)).Sublist (metrics.map (·.metric)) := by
  have hnames : ∀ m5 : List MetricStat, (families node stats0).map (·.name) = ((ms ++ [badPackets, queuedChunks] ++
      [senders, sendersPackets, sendersPeriod, sendersRate] ++ ms4 ++ ms3).map (·.metric)) ++
        (if node.maskStats.length = 0 then [] else ms5.map (maskFamily node.maskStats)).map (·.name) := by
    intro _
    simp only [families, List.map_append, List.map_map]
    rfl
  rw [hnames [], metrics, List.map_append]
  refine List.Sublist.append_left ?_ _
  split
  · exact List.nil_sublist _
  · rw [List.map_map]
    exact List.Sublist.refl _

theorem nodup_levels (bstats : Stats) (key : Text) : ((levels bstats key).map (·.1)).Nodup := by
  rw [levels, List.map_cons, List.map_map, List.nodup_cons]
  constructor
  · intro h
    obtain ⟨lev, hlev, heq⟩ := List.mem_map.1 h
    have hpos := (List.mem_range'_1.1 hlev).1
    have heq : (lev : Int) = 0 := heq
    omega
  · exact (List.nodup_range' (h := Nat.one_pos)).map (fun a b h => Int.ofNat_inj.1 h)

theorem beamLabels_inj {n n' : Int} {l l' : Text × Text} (h : [beamLabel n, l] = [beamLabel n', l']) :
    n = n' ∧ l = l' := by
  obtain ⟨hbeam, h⟩ := List.cons.inj h
  exact ⟨toString_inj (congrArg Prod.snd hbeam), (List.cons.inj h).1⟩

theorem nodup_levelFamily {stats : List Stats} (h : ((stats.drop 2).map beamId).Nodup) (m : MetricStat) :
    ((levelFamily stats m).samples.map (·.1)).Nodup := by
  show (List.map _ (List.flatMap _ _)).Nodup
  rw [List.map_flatMap, List.nodup_flatMap]
  constructor
  · intro bstats _
    rw [List.map_map]
    have hinj : Function.Injective (fun lev : Int =>
        [beamLabel (beamId bstats), ("level".toList, FileUtils.toString lev)]) :=
      fun a b hab => toString_inj (congrArg Prod.snd (beamLabels_inj hab).2)
    have hmap := (nodup_levels bstats m.key).map hinj
    rw [List.map_map] at hmap
    exact hmap
  · refine (List.pairwise_map.1 h).imp (fun {bstats bstats'} hne => ?_)
    intro labels hlabels hlabels'
    obtain ⟨s, hs, rfl⟩ := List.mem_map.1 hlabels
    obtain ⟨s', hs', heq⟩ := List.mem_map.1 hlabels'
    obtain ⟨lev, -, rfl⟩ := List.mem_map.1 hs
    obtain ⟨lev', -, rfl⟩ := List.mem_map.1 hs'
    exact hne (beamLabels_inj heq).1.symm

/-- The series of a family differ if what their labels are made of does. -/
theorem nodup_series {α β : Type} {l : List α} {f : α → β} {g : β → List (Text × Text)} (value : α → Text)
    (h : (l.map f).Nodup) (hg : Function.Injective g) (m : MetricStat) :
    ((m.family (l.map (fun a => (g (f a), value a)))).samples.map (·.1)).Nodup := by
  have hmap := h.map hg
  rw [List.map_map] at hmap
  rw [MetricStat.family, List.map_map]
  exact hmap

theorem label_injective (k : Text) : Function.Injective (fun t : Text => [(k, t)]) :=
  fun _ _ h => congrArg Prod.snd (List.cons.inj h).1

theorem wellFormed_families {node : Node} {stats0 : Stats} (h : node.Distinct stats0) :
    WellFormed (families node stats0) := by
  refine ⟨nodup_metrics.sublist (names_families node stats0), families_forall node stats0 ?_ ?_ ?_ ?_ ?_ ?_ ?_⟩
  · exact fun _ _ => List.nodup_singleton _
  · obtain ⟨reasons, hreasons, hnodup⟩ : ∃ reasons, Literals (ms2.map (·.metric)) reasons ∧ reasons.Nodup :=
      ⟨_, by repeat constructor, by decide⟩
    exact nodup_series _ (hreasons.eq ▸ hnodup) (label_injective _) badPackets
  · rw [devices_streamStats]
    exact nodup_series _ (nodup_devices h.keys) (label_injective _) queuedChunks
  · exact fun _ _ _ _ => List.nodup_singleton _
  · exact fun m _ => nodup_series (f := beamId) (g := fun n => [beamLabel n]) _ h.beams
      (fun a b hab => toString_inj (congrArg Prod.snd (List.cons.inj hab).1)) m
  · exact fun m _ => nodup_levelFamily h.beams m
  · exact fun m _ => nodup_series (g := fun k : Int × Text => [beamLabel k.1, ("where".toList, k.2)]) _ h.counters
      (fun a b hab => Prod.ext (beamLabels_inj hab).1 (Prod.mk.inj (beamLabels_inj hab).2).2) m

/-! ## Which pages can be read -/

/-- The names of the devices and of the places of mask counters need no escapes. -/
structure Node.Plain (node : Node) (stats0 : Stats) : Prop where
  devices : ∀ name value, (queuedChunks.key ++ name, value) ∈ stats0 → Clean name
  wheres  : ∀ it ∈ node.maskStats, Clean it.1.2

theorem clean_beamLabel (n : Int) : Clean (beamLabel n).2 := clean_toString n

theorem clean_family {m : MetricStat} {samples : List (List (Text × Text) × Text)} :
    (m.family samples).Clean ↔ ∀ s ∈ samples, ∀ l ∈ s.1, Clean l.2 := Iff.rfl

theorem clean_single (m : MetricStat) (v : Text) : (m.family [([], v)]).Clean := by
  rw [clean_family]
  simp

theorem clean_families {node : Node} {stats0 : Stats} (h : node.Plain stats0) : ∀ f ∈ families node stats0, f.Clean := by
  apply families_forall
  · exact fun m _ => clean_single m _
  · obtain ⟨reasons, hreasons, hclean⟩ : ∃ reasons, Literals (ms2.map (·.metric)) reasons ∧
        reasons.all (fun t => decide (Clean t)) = true := ⟨_, by repeat constructor, by decide⟩
    simp only [← hreasons.eq, List.all_eq_true, decide_eq_true_eq, List.forall_mem_map] at hclean
    rw [clean_family, List.forall_mem_map]
    intro m hm l hl
    obtain rfl := List.mem_singleton.1 hl
    exact hclean m hm
  · rw [clean_family, List.forall_mem_map, devices_streamStats]
    intro d hd l hl
    obtain rfl := List.mem_singleton.1 hl
    exact h.devices d.1 d.2 (mem_devices.1 hd)
  · exact fun m _ v _ => clean_single m v
  · intro m _
    rw [beamFamily, clean_family, List.forall_mem_map]
    intro bstats _ l hl
    obtain rfl := List.mem_singleton.1 hl
    exact clean_beamLabel _
  · intro m _
    rw [levelFamily, clean_family]
    intro s hs l hl
    obtain ⟨bstats, -, hs⟩ := List.mem_flatMap.1 hs
    obtain ⟨lev, -, rfl⟩ := List.mem_map.1 hs
    rcases List.mem_cons.1 hl with rfl | hl
    · exact clean_beamLabel _
    · obtain rfl := List.mem_singleton.1 hl
      exact clean_toString _
  · intro m _
    rw [maskFamily, clean_family, List.forall_mem_map]
    intro it hit l hl
    rcases List.mem_cons.1 hl with rfl | hl
    · exact clean_beamLabel _
    · obtain rfl := List.mem_singleton.1 hl
      exact h.wheres it hit

theorem queuedChunks_mem (node : Node) (stats0 : Stats) :
    queuedChunks.family ((devices (streamStats stats0)).map (fun d => ([("device".toList, d.1)], number d.2))) ∈
      families node stats0 := by
  simp only [families, List.mem_append, List.mem_cons]
  exact .inl (.inl (.inl (.inl (.inr (.inr (.inl trivial))))))

theorem maskFamily_mem {node : Node} (stats0 : Stats) (h : node.maskStats ≠ []) {m : MetricStat} (hm : m ∈ ms5) :
    maskFamily node.maskStats m ∈ families node stats0 := by
  simp only [families, List.mem_append]
  refine .inr ?_
  rw [if_neg (fun hlen => h (List.length_eq_zero_iff.1 hlen))]
  exact List.mem_map_of_mem hm

theorem plain_of_clean {node : Node} {stats0 : Stats} (h : ∀ f ∈ families node stats0, f.Clean) : node.Plain stats0 where
  devices name value hmem := by
    have hfamily := h _ (queuedChunks_mem node stats0)
    rw [clean_family, List.forall_mem_map, devices_streamStats] at hfamily
    exact hfamily (name, value) (mem_devices.2 hmem) _ (.head _)
  wheres it hit := by
    have hms5 : ms5.head (List.cons_ne_nil _ _) ∈ ms5 := List.head_mem _
    have hfamily := h _ (maskFamily_mem stats0 (List.ne_nil_of_mem hit) hms5)
    rw [maskFamily, clean_family, List.forall_mem_map] at hfamily
    exact hfamily it hit _ (.tail _ (.head _))

/-- **What a scraper takes from the page of a node**, for all statistics, packet rates and mask counters: behind the
header exactly the metrics with their values, no metric twice and no series, if no device and no place of a mask counter
has a quote, a backslash or an end of line in its name; and if one has, something else or nothing. -/
theorem handleGet_exposes_iff (node : Node) (stats0 : Stats) (hstats : node.stats[0]? = some stats0)
    (hdistinct : node.Distinct stats0) : ∃ page, handleGet node = some (httpHeader ++ page) ∧
      (node.Plain stats0 → ∀ fs, Exposes page fs ↔ fs = families node stats0) ∧
      (¬ node.Plain stats0 → ¬ Exposes page (families node stats0)) := by
  have hiff : Exposes ((families node stats0).flatMap Family.text) (families node stats0) ↔ node.Plain stats0 := by
    rw [exposes_iff (printable_families node stats0) (wellFormed_families hdistinct)]
    exact ⟨plain_of_clean, clean_families⟩
  refine ⟨_, handleGet_eq hstats, fun hplain fs => ⟨fun h => ?_, ?_⟩, fun hplain h => hplain (hiff.1 h)⟩
  · exact exposes_unique h (hiff.2 hplain)
  · rintro rfl
    exact hiff.2 hplain

/-! ## A node with two beams -/

def streamOfTwo : Stats := [("count_packets_good".toList, 5), ("output_chunks_queued_/local".toList, 3)]

def twoBeams : Node where
  stats     := [streamOfTwo, [], [("beam_id".toList, 10), ("ringbuf_nlevels".toList, 2)], [("beam_id".toList, 11)]]
  packets   := none
  maskStats := [((10, "after_rfi".toList), [])]

theorem twoBeams_distinct : twoBeams.Distinct streamOfTwo where
  keys     := by decide +kernel
  beams    := by decide +kernel
  counters := by decide +kernel

theorem twoBeams_plain : twoBeams.Plain streamOfTwo where
  devices name value hmem := by
    have hclean : (devices streamOfTwo).all (fun d => decide (Clean d.1)) = true := by decide +kernel
    simpa using List.all_eq_true.1 hclean (name, value) (mem_devices.2 hmem)
  wheres := by
    have hclean : twoBeams.maskStats.all (fun it => decide (Clean it.1.2)) = true := by decide +kernel
    simpa using hclean

theorem handleGet_exposes_iff_two : ∃ page, handleGet twoBeams = some (httpHeader ++ page) ∧
    Exposes page (families twoBeams streamOfTwo) := by
  obtain ⟨page, hpage, hiff⟩ := handleGet_exposes_iff twoBeams streamOfTwo rfl twoBeams_distinct
  exact ⟨page, hpage, (hiff.1 twoBeams_plain _).2 rfl⟩

end Prometheus
end FrbL1
