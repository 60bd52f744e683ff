import FrbL1.MsgpackPacker
import Mathlib.Data.Rat.Defs
import Mathlib.Algebra.Order.Ring.Rat
import Mathlib.Tactic.FieldSimp
/-!
# RpcMaskedFrequencies — what a client reads from `get_masked_frequencies`

The handler packs its reply piece by piece, without an object: for each ring buffer of the map the beam, the place in
the chain, one number of samples and a row of counts for each measurement.  The client divides all rows by the one
number, here in exact arithmetic.  Its table has the server's keys, and in each row the fractions of masked samples,
exactly where the measurement has as many samples as the first of its ring buffer (`masked_frequencies_are_fractions`).
-/
namespace FrbL1
namespace Rpc

open Msgpack

/-- `rf_pipelines::mask_measurements`, as far as the handler reads it. -/
structure MaskMeasurements where
  nt            : Int
  nf            : Int
  freqsUnmasked : List Int

/-- `mask_stats_map::msm` with `get_all_measurements()` of each ring buffer, in the order of the iteration. -/
abbrev MaskStats := List ((Int × List Char) × List MaskMeasurements)

/-! ## The code -/

def packMeasurement (m : MaskMeasurements) : List UInt8 :=
  packArray (m.nf % 2 ^ 32).toNat ++
    (List.range m.nf.toNat).flatMap (fun k => packInt (m.nt - m.freqsUnmasked.getD k 0))

/-- The body of the loop.  `none`: the text has too many bytes for a message. -/
def packMaskStats (it : (Int × List Char) × List MaskMeasurements) : Option (List UInt8) := do
  let (beamId, «where») := it.1
  let meas := it.2
  let packedWhere ← packText (utf8 «where»)
  let nt := match meas with
    | []     => 0
    | m :: _ => m.nt
  return packArray 4 ++ packInt beamId ++ packedWhere ++ packInt nt ++ packArray meas.length ++
    meas.flatMap packMeasurement

/-- `_handle_request`, for `get_masked_frequencies`. -/
def getMaskedFrequencies (maskStats : MaskStats) : Option (List UInt8) :=
  (maskStats.mapM packMaskStats).map (fun parts => packArray maskStats.length ++ parts.flatten)

/-- `histories`, in exact arithmetic. -/
abbrev Histories := Int × List Char → Option (List (List ℚ))

/-- `np.array(hist)` for numbers in rows, which have to be of one length. -/
def npArray (hist : Object) : Option (List (List Int)) := do
  let rows ← hist.list? (Object.list? Object.int?)
  if ∀ row ∈ rows, ∀ row' ∈ rows, row.length = row'.length then
    return rows
  none

/-- `np.array(hist).astype(np.float32) / nt` -/
def maskedFractions (rows : List (List Int)) (nt : Int) : List (List ℚ) :=
  rows.map (List.map (fun n : Int => (n / nt : ℚ)))

/-- The body of the loop in `MaskedFrequencies.__init__`. -/
def readMaskStats (histories : Histories) (m : Object) : Option Histories :=
  match m.items with
  | some [beam, «where», nt, hist] => do
    let beam ← beam.int?
    let «where» ← «where».text?
    let rows ← npArray hist
    let nt ← nt.int?
    return fun k => if k = (beam, «where») then some (maskedFractions rows nt) else histories k
  | _ => none

/-- `MaskedFrequencies(msgpack.unpackb(part))` -/
def maskedFrequencies (part : List UInt8) : Option Histories := do
  let msg ← (codec.unpackb part).bind Object.items
  msg.foldlM readMaskStats (fun _ => none)

/-! ## What is packed -/

/-- A measurement of one ring buffer: of each frequency some of the samples are unmasked. -/
structure MaskMeasurements.Valid (m : MaskMeasurements) : Prop where
  nt_pos   : 0 < m.nt
  nt_lt    : m.nt < 2 ^ 31
  nf_lt    : m.nf < 2 ^ 31
  length   : m.nf = m.freqsUnmasked.length
  unmasked : ∀ n ∈ m.freqsUnmasked, 0 ≤ n ∧ n ≤ m.nt

instance (m : MaskMeasurements) : Decidable m.Valid :=
  decidable_of_iff (0 < m.nt ∧ m.nt < 2 ^ 31 ∧ m.nf < 2 ^ 31 ∧ m.nf = m.freqsUnmasked.length ∧
      ∀ n ∈ m.freqsUnmasked, 0 ≤ n ∧ n ≤ m.nt)
    ⟨fun ⟨h, h', h'', h3, h4⟩ => ⟨h, h', h'', h3, h4⟩, fun h => ⟨h.nt_pos, h.nt_lt, h.nf_lt, h.length, h.unmasked⟩⟩

structure MaskStats.Valid (maskStats : MaskStats) : Prop where
  keys     : (maskStats.map (·.1)).Nodup
  size     : maskStats.length < 2 ^ 32
  beams    : ∀ it ∈ maskStats, -2 ^ 31 ≤ it.1.1 ∧ it.1.1 < 2 ^ 31
  wheres   : ∀ it ∈ maskStats, (utf8 it.1.2).length < 2 ^ 32
  sizes    : ∀ it ∈ maskStats, it.2.length < 2 ^ 32
  measured : ∀ it ∈ maskStats, ∀ m ∈ it.2, m.Valid
  channels : ∀ it ∈ maskStats, ∀ m ∈ it.2, ∀ m' ∈ it.2, m.nf = m'.nf

def MaskMeasurements.masked (m : MaskMeasurements) : List Int := m.freqsUnmasked.map (m.nt - ·)

def firstNt (meas : List MaskMeasurements) : Int := (meas.head?.map (·.nt)).getD 0

theorem carries_measurement {m : MaskMeasurements} (h : m.Valid) :
    Carries (packMeasurement m) (Object.list? Object.int?) m.masked := by
  have hnt := h.nt_lt
  have hnf := h.nf_lt
  have hlen := h.length
  have hnat : m.nf.toNat = m.freqsUnmasked.length := by rw [hlen, Int.toNat_natCast]
  have hmod : (m.nf % 2 ^ 32).toNat = m.freqsUnmasked.length := by
    rw [Int.emod_eq_of_lt (by omega) (by omega), hnat]
  have hparts : (List.range m.nf.toNat).map (fun k => packInt (m.nt - m.freqsUnmasked.getD k 0)) =
      m.masked.map packInt := by
    rw [hnat]
    refine List.ext_getElem (by simp [MaskMeasurements.masked]) (fun k hk hk' => ?_)
    have hk : k < m.freqsUnmasked.length := by simpa using hk
    simp [MaskMeasurements.masked, hk]
  have hcarries : List.Forall₂ (fun part n => Carries part Object.int? n) (m.masked.map packInt) m.masked := by
    rw [List.forall₂_map_left_iff, List.forall₂_same]
    intro n hn
    obtain ⟨c, hc, rfl⟩ := List.mem_map.1 hn
    obtain ⟨h0, hle⟩ := h.unmasked c hc
    exact carries_int (by omega) (by omega)
  have hlist := carries_list hcarries (by simp only [MaskMeasurements.masked, List.length_map]; omega)
  unfold packMeasurement
  rw [hmod, List.flatMap_def, hparts]
  simpa [MaskMeasurements.masked] using hlist

theorem packText_of_lt {bytes : List UInt8} (h : bytes.length < 2 ^ 32) : ∃ packed, packText bytes = some packed := by
  unfold packText
  split_ifs <;> exact ⟨_, rfl⟩

theorem packMaskStats_eq (it : (Int × List Char) × List MaskMeasurements) :
    packMaskStats it = (packText (utf8 it.1.2)).map (fun packedWhere => packArray 4 ++
      [packInt it.1.1, packedWhere, packInt (firstNt it.2),
        packArray it.2.length ++ (it.2.map packMeasurement).flatten].flatten) := by
  obtain ⟨⟨beamId, «where»⟩, meas⟩ := it
  cases hw : packText (utf8 «where») with
  | none => simp [packMaskStats, hw]
  | some packedWhere => cases meas <;> simp [packMaskStats, hw, firstNt, List.flatMap_def]

theorem packMaskStats_read {maskStats : MaskStats} (h : maskStats.Valid) {it : (Int × List Char) × List MaskMeasurements}
    (hit : it ∈ maskStats) : ∃ part o, packMaskStats it = some part ∧ pack o = some part ∧ ∀ histories,
      readMaskStats histories o = some (fun k => if k = it.1 then
        some (maskedFractions (it.2.map MaskMeasurements.masked) (firstNt it.2)) else histories k) := by
  obtain ⟨⟨beamId, «where»⟩, meas⟩ := it
  obtain ⟨packedWhere, hwhere⟩ := packText_of_lt (h.wheres _ hit)
  obtain ⟨hlo, hhi⟩ : -2 ^ 31 ≤ beamId ∧ beamId < 2 ^ 31 := h.beams _ hit
  obtain ⟨beam, hbeam, hbeam'⟩ := carries_int (n := beamId) (by omega) (by omega)
  obtain ⟨w, hw, hw'⟩ := carries_text hwhere
  have hfirst : 0 ≤ firstNt meas ∧ firstNt meas < 2 ^ 31 := by
    cases meas with
    | nil => exact ⟨by decide, by decide⟩
    | cons m rest =>
      have hm := h.measured _ hit m (.head _)
      exact ⟨hm.nt_pos.le, hm.nt_lt⟩
  obtain ⟨nt, hnt, hnt'⟩ := carries_int (n := firstNt meas) (by omega) (by omega)
  have hrows : List.Forall₂ (fun part row => Carries part (Object.list? Object.int?) row) (meas.map packMeasurement)
      (meas.map MaskMeasurements.masked) := by
    rw [List.forall₂_map_left_iff, List.forall₂_map_right_iff, List.forall₂_same]
    exact fun m hm => carries_measurement (h.measured _ hit m hm)
  obtain ⟨hist, hhist, hhist'⟩ := carries_list hrows (by rw [List.length_map]; exact h.sizes _ hit)
  obtain ⟨o, ho, ho'⟩ := carries_items (.cons hbeam (.cons hw (.cons hnt (.cons hhist .nil)))) (by simp)
  refine ⟨_, o, ?_, ho, fun histories => ?_⟩
  · rw [packMaskStats_eq, hwhere, List.length_map]
    rfl
  · have hrect : ∀ row ∈ meas.map MaskMeasurements.masked, ∀ row' ∈ meas.map MaskMeasurements.masked,
        row.length = row'.length := by
      intro row hrow row' hrow'
      obtain ⟨m, hm, rfl⟩ := List.mem_map.1 hrow
      obtain ⟨m', hm', rfl⟩ := List.mem_map.1 hrow'
      have hnf := h.channels _ hit m hm m' hm'
      rw [(h.measured _ hit m hm).length, (h.measured _ hit m' hm').length] at hnf
      simpa [MaskMeasurements.masked] using hnf
    have hnp : npArray hist = some (meas.map MaskMeasurements.masked) := by
      unfold npArray
      rw [hhist', Option.bind_eq_bind, Option.bind_some, if_pos hrect]
      rfl
    simp only [readMaskStats, ho', hbeam', hw', hnt', hnp, Option.bind_eq_bind, Option.bind_some]
    rfl

/-! ## What is read -/

def Histories.from (histories : Histories) (maskStats : MaskStats) : Histories :=
  maskStats.foldl (fun histories it k => if k = it.1 then
    some (maskedFractions (it.2.map MaskMeasurements.masked) (firstNt it.2)) else histories k) histories

theorem from_of_not_mem {k : Int × List Char} : ∀ {maskStats : MaskStats} (histories : Histories),
    k ∉ maskStats.map (·.1) → histories.from maskStats k = histories k
  | [],       _,         _ => rfl
  | it :: l,  histories, h => by
    rw [List.map_cons, List.mem_cons, not_or] at h
    have hrest := @from_of_not_mem k l (fun k => if k = it.1 then
      some (maskedFractions (it.2.map MaskMeasurements.masked) (firstNt it.2)) else histories k) h.2
    rw [if_neg h.1] at hrest
    exact hrest

theorem from_of_mem {it : (Int × List Char) × List MaskMeasurements} : ∀ {maskStats : MaskStats} (histories : Histories),
    (maskStats.map (·.1)).Nodup → it ∈ maskStats →
      histories.from maskStats it.1 = some (maskedFractions (it.2.map MaskMeasurements.masked) (firstNt it.2))
  | x :: l, histories, hnodup, hit => by
    rw [List.map_cons, List.nodup_cons] at hnodup
    rcases List.mem_cons.1 hit with rfl | hit
    · exact (from_of_not_mem _ hnodup.1).trans (if_pos rfl)
    · exact @from_of_mem it l _ hnodup.2 hit

theorem foldlM_readMaskStats {maskStats : MaskStats} {os : List Object} (h : List.Forall₂ (fun it o => ∀ histories,
    readMaskStats histories o = some (fun k => if k = it.1 then
      some (maskedFractions (it.2.map MaskMeasurements.masked) (firstNt it.2)) else histories k)) maskStats os) :
    ∀ histories : Histories, os.foldlM readMaskStats histories = some (histories.from maskStats) := by
  induction h with
  | nil => exact fun _ => rfl
  | cons ho _ ih =>
    intro histories
    rw [List.foldlM_cons, ho, Option.bind_eq_bind, Option.bind_some]
    exact ih _

theorem maskedFrequencies_eq {maskStats : MaskStats} (h : maskStats.Valid) : ∃ part,
    getMaskedFrequencies maskStats = some part ∧
      maskedFrequencies part = some (Histories.from (fun _ => none) maskStats) := by
  obtain ⟨parts, os, hparts, hos, hread⟩ : ∃ parts os, maskStats.mapM packMaskStats = some parts ∧
      List.Forall₂ (fun part o => pack o = some part) parts os ∧ List.Forall₂ (fun it o => ∀ histories,
        readMaskStats histories o = some (fun k => if k = it.1 then
          some (maskedFractions (it.2.map MaskMeasurements.masked) (firstNt it.2)) else histories k)) maskStats os := by
    have hall : ∀ it ∈ maskStats, _ := fun it hit => packMaskStats_read h hit
    clear h
    induction maskStats with
    | nil => exact ⟨[], [], rfl, .nil, .nil⟩
    | cons it l ih =>
      obtain ⟨part, o, hpart, hpack, hread⟩ := hall it (.head _)
      obtain ⟨parts, os, hparts, hos, hreads⟩ := ih (fun it' hit' => hall it' (.tail _ hit'))
      refine ⟨part :: parts, o :: os, ?_, .cons hpack hos, .cons hread hreads⟩
      rw [List.mapM_cons, hpart, hparts]
      rfl
  have hlen : parts.length = maskStats.length := by rw [hos.length_eq, hread.length_eq]
  have hitems := carries_items hos (hlen ▸ h.size)
  refine ⟨packArray maskStats.length ++ parts.flatten, ?_, ?_⟩
  · rw [getMaskedFrequencies, hparts, Option.map_some]
  · unfold maskedFrequencies
    rw [← hlen, hitems.unpackb, Option.bind_eq_bind, Option.bind_some]
    exact foldlM_readMaskStats hread _

def MaskMeasurements.fractions (m : MaskMeasurements) : List ℚ := m.masked.map (fun n : Int => (n / m.nt : ℚ))

/-- Divided by another number of samples, the counts are fractions only if they are zero. -/
theorem fractions_iff {m : MaskMeasurements} (h : m.Valid) {nt : Int} (hnt : 0 < nt) :
    m.masked.map (fun n : Int => (n / nt : ℚ)) = m.fractions ↔ m.nt = nt ∨ ∀ n ∈ m.freqsUnmasked, n = m.nt := by
  have hm : (m.nt : ℚ) ≠ 0 := by exact_mod_cast h.nt_pos.ne'
  have hnt' : (nt : ℚ) ≠ 0 := by exact_mod_cast hnt.ne'
  have hdiv : ∀ n : Int, (n / nt : ℚ) = n / m.nt ↔ n = 0 ∨ m.nt = nt := by
    intro n
    rw [div_eq_div_iff hnt' hm]
    constructor
    · intro heq
      have heq : n * m.nt = n * nt := by exact_mod_cast heq
      rcases eq_or_ne n 0 with h0 | h0
      · exact .inl h0
      · exact .inr (mul_left_cancel₀ h0 heq)
    · rintro (rfl | rfl)
      · simp
      · rfl
  unfold MaskMeasurements.fractions
  rw [List.map_inj_left]
  simp only [MaskMeasurements.masked, List.forall_mem_map, hdiv]
  constructor
  · intro hall
    by_cases heq : m.nt = nt
    · exact .inl heq
    · exact .inr (fun n hn => by have := (hall n hn).resolve_right heq; omega)
  · rintro (heq | hall) n hn
    · exact .inr heq
    · exact .inl (by rw [hall n hn, sub_self])

/-- **What the client shows of `get_masked_frequencies`.**  Its table has exactly the keys of the server's map, and for
each a row for each measurement, in order, with a number for each frequency.  The numbers are the fractions of masked
samples exactly where the measurement has as many samples as the first one of its ring buffer, or masks nothing. -/
theorem masked_frequencies_are_fractions (maskStats : MaskStats) (h : maskStats.Valid) : ∃ part histories,
    getMaskedFrequencies maskStats = some part ∧ maskedFrequencies part = some histories ∧
      (∀ k, (histories k).isSome ↔ k ∈ maskStats.map (·.1)) ∧
      ∀ it ∈ maskStats, ∃ rows, histories it.1 = some rows ∧ rows.length = it.2.length ∧
        ∀ (i : Nat) (m : MaskMeasurements), it.2[i]? = some m → ∃ row : List ℚ, rows[i]? = some row ∧
          row.length = m.freqsUnmasked.length ∧
            (row = m.fractions ↔ m.nt = firstNt it.2 ∨ ∀ n ∈ m.freqsUnmasked, n = m.nt) := by
  obtain ⟨part, hpart, hread⟩ := maskedFrequencies_eq h
  refine ⟨part, _, hpart, hread, fun k => ⟨fun hk => ?_, fun hk => ?_⟩, fun it hit => ?_⟩
  · by_contra hmem
    rw [from_of_not_mem _ hmem] at hk
    cases hk
  · obtain ⟨it, hit, rfl⟩ := List.mem_map.1 hk
    rw [from_of_mem _ h.keys hit]
    rfl
  · refine ⟨_, from_of_mem _ h.keys hit, by simp [maskedFractions], fun i m hi => ?_⟩
    have hmem : m ∈ it.2 := List.mem_of_getElem? hi
    have hfirst : 0 < firstNt it.2 := by
      cases hmeas : it.2 with
      | nil => rw [hmeas] at hmem; cases hmem
      | cons m' l => exact (h.measured it hit m' (hmeas ▸ .head _)).nt_pos
    refine ⟨m.masked.map (fun n : Int => (n / firstNt it.2 : ℚ)), ?_, by simp [MaskMeasurements.masked], ?_⟩
    · simp [maskedFractions, hi]
    · exact fractions_iff (h.measured it hit m hmem) hfirst

def shorterMeasurement : MaskStats :=
  [((7, "after_rfi".toList), [⟨1024, 2, [1000, 0]⟩, ⟨512, 2, [500, 512]⟩]), ((7, "before_rfi".toList), [])]

theorem shorterMeasurement_valid : shorterMeasurement.Valid where
  keys     := by decide +kernel
  size     := by decide +kernel
  beams    := by decide +kernel
  wheres   := by decide +kernel
  sizes    := by decide +kernel
  measured := by decide +kernel
  channels := by decide +kernel

theorem masked_frequencies_are_fractions_shorter : ∃ part histories,
    getMaskedFrequencies shorterMeasurement = some part ∧ maskedFrequencies part = some histories ∧
      ∃ rows row, histories (7, "after_rfi".toList) = some rows ∧ rows[1]? = some row ∧
        row ≠ MaskMeasurements.fractions ⟨512, 2, [500, 512]⟩ := by
  obtain ⟨part, histories, hpart, hread, -, hrows⟩ :=
    masked_frequencies_are_fractions shorterMeasurement shorterMeasurement_valid
  obtain ⟨rows, hrows, -, hrow⟩ := hrows ((7, "after_rfi".toList), [⟨1024, 2, [1000, 0]⟩, ⟨512, 2, [500, 512]⟩]) (.head _)
  obtain ⟨row, hi, -, hiff⟩ := hrow 1 _ rfl
  exact ⟨part, histories, hpart, hread, rows, row, hrows, hi, fun heq => absurd (hiff.1 heq) (by decide +kernel)⟩

end Rpc
end FrbL1
