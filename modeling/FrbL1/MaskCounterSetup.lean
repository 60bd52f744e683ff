import FrbL1.MaskCounters
import Mathlib.Data.List.Induction
/-!
# MaskCounterSetup — which mask counter fills the chunks

`_init_mask_counters` with its effects: the calls of `set_runtime_attrs` and of `put`.  One boolean says of the objects
visited so far whether there is a clipper behind the last mask counter (`clippersAfter_iff`), and so the last of all
mask counters fills the assembled chunks, or nothing is set up at all (`setsUp_maskCounters`).
-/
namespace FrbL1
namespace Startup

open Config (L1Config Stop)
open FileUtils (find find_eq find_of_append)

/-! ## With effects -/

/-- What is used of the library: which object is visited at a place of the chain, and the ring buffer that
`set_runtime_attrs` gives to it, or a null pointer. -/
structure Pipelines (Object Ringbuf : Type) where
  object  : Nat → Object
  ringbuf : Object → RuntimeAttrs → Option Ringbuf

/-- The calls of `set_runtime_attrs` and of `mask_stats_map::put`, in their order. -/
structure Calls (Object Ringbuf : Type) where
  set : List (Object × RuntimeAttrs)
  put : List (Int × List Char × Ringbuf)

section
variable {Object Ringbuf : Type} (pipelines : Pipelines Object Ringbuf)

def putRingbuf (beamId : Int) («where» : List Char) (ringbuf : Option Ringbuf) (calls : Calls Object Ringbuf) :
    Except Stop (Calls Object Ringbuf) :=
  match ringbuf with
  | some ringbuf => .ok { calls with put := calls.put ++ [(beamId, «where», ringbuf)] }
  | none         => .error (.threw "ch-frb-l1::mask_stats_map::put(): empty 'ringbuf' pointer".toList)

/-- For the `i`-th of `n` mask counters: the last one fills the assembled chunks, if RFI masks are requested. -/
def runtimeAttrs (c : L1Config) (sp : Nat) (beamId : Int) (n i : Nat) : RuntimeAttrs :=
  ⟨c.rfiMaskMeasHistory, beamId, if c.nrfifreq > 0 ∧ i + 1 = n then some sp else none⟩

/-- The loop over the mask counters, from the `i`-th of `n`. -/
def setMaskCounters (c : L1Config) (sp : Nat) (beamId : Int) (n : Nat) :
    Nat → List (Nat × List Char) → Calls Object Ringbuf → Except Stop Unit × Calls Object Ringbuf
  | _, [],                       calls => (.ok (), calls)
  | i, (place, «where») :: rest, calls =>
    let attrs := runtimeAttrs c sp beamId n i
    let calls := { calls with set := calls.set ++ [(pipelines.object place, attrs)] }
    match putRingbuf beamId «where» (pipelines.ringbuf (pipelines.object place) attrs) calls with
    | .error e  => (.error e, calls)
    | .ok calls => setMaskCounters c sp beamId n (i + 1) rest calls

/-- `_init_mask_counters`, and what it has called. -/
def runInitMaskCounters (c : L1Config) (sp : Nat) (chain : List PipelineObject) (beamId : Int) :
    Except Stop Unit × Calls Object Ringbuf :=
  let f := visitPipeline chain
  if c.nrfifreq > 0 ∧ f.maskCounters.length = 0 then
    (.error (.threw "ch-frb-l1: RFI masks requested, but no mask_counters in the RFI config JSON file".toList), ⟨[], []⟩)
  else if c.nrfifreq > 0 ∧ f.clippersAfterMaskCounters then
    (.error (.threw ("ch-frb-l1: RFI masks requested, and clippers occur after the last mask_counter in the RFI config " ++
      "JSON file").toList), ⟨[], []⟩)
  else setMaskCounters pipelines c sp beamId f.maskCounters.length 0 f.maskCounters ⟨[], []⟩

end

/-! ## The chain -/

def IsClipper (x : PipelineObject) : Prop := "clipper".toList <:+: x.className

def IsCounter («where» : List Char) (x : PipelineObject) : Prop := ¬ IsClipper x ∧ x.maskCounter = some «where»

/-- There is such an object at place `i`. -/
def At (P : PipelineObject → Prop) (chain : List PipelineObject) (i : Nat) : Prop := ∃ x, chain[i]? = some x ∧ P x

abbrev CounterAt (chain : List PipelineObject) (i : Nat) («where» : List Char) : Prop := At (IsCounter «where») chain i

abbrev ClipperAt (chain : List PipelineObject) (i : Nat) : Prop := At IsClipper chain i

structure LastCounter (chain : List PipelineObject) (i : Nat) («where» : List Char) : Prop where
  counter : CounterAt chain i «where»
  last    : ∀ j w, CounterAt chain j w → j ≤ i

theorem isSome_find_iff {pat s : List Char} : (find pat s).isSome = true ↔ pat <:+: s := by
  constructor
  · intro h
    obtain ⟨⟨pre, post⟩, hf⟩ := Option.isSome_iff_exists.1 h
    exact ⟨pre, post, (find_eq hf).symm⟩
  · rintro ⟨u, v, h⟩
    obtain ⟨pre, post, hf, -⟩ := find_of_append h.symm
    rw [hf]
    rfl

section
variable {chain : List PipelineObject} {x : PipelineObject} {i : Nat} {w : List Char}

theorem visitPipeline_append (chain : List PipelineObject) (x : PipelineObject) :
    visitPipeline (chain ++ [x]) = findMaskCounters (visitPipeline chain) (x, chain.length) := by
  unfold visitPipeline
  rw [List.zipIdx_append, List.foldl_append]
  simp only [Nat.zero_add, List.zipIdx_singleton, List.foldl_cons, List.foldl_nil]

theorem at_append {P : PipelineObject → Prop} : At P (chain ++ [x]) i ↔ At P chain i ∨ i = chain.length ∧ P x := by
  unfold At
  rcases Nat.lt_trichotomy i chain.length with hlt | rfl | hgt
  · rw [List.getElem?_append_left hlt]
    simp [hlt.ne]
  · rw [List.getElem?_concat_length, List.getElem?_eq_none le_rfl]
    simp
  · rw [List.getElem?_eq_none (by simp; omega), List.getElem?_eq_none (by omega)]
    simp [hgt.ne']

theorem At.lt {P : PipelineObject → Prop} (h : At P chain i) : i < chain.length := by
  obtain ⟨x, hx, -⟩ := h
  exact (List.getElem?_eq_some_iff.1 hx).1

theorem mem_maskCounters (chain : List PipelineObject) : ∀ i w,
    (i, w) ∈ (visitPipeline chain).maskCounters ↔ CounterAt chain i w := by
  induction chain using List.reverseRecOn with
  | nil => exact fun i w => ⟨fun h => (nomatch h), fun ⟨_, h, _⟩ => (nomatch h)⟩
  | append_singleton chain x ih =>
    intro i w
    rw [visitPipeline_append, CounterAt, at_append, ← CounterAt, ← ih]
    unfold findMaskCounters
    split
    · rename_i hclip
      have hno : ¬ IsCounter w x := fun h => h.1 (isSome_find_iff.1 hclip)
      split <;> simp [hno]
    · rename_i hclip
      have hnot : ¬ IsClipper x := mt isSome_find_iff.2 hclip
      cases hcounter : x.maskCounter with
      | none => simp [IsCounter, hcounter]
      | some w' =>
        simp only [List.mem_append, List.mem_singleton, Prod.mk.injEq, IsCounter, hnot, not_false_iff, true_and,
          hcounter, Option.some.injEq]
        exact or_congr_right (and_congr_right (fun _ => eq_comm))

theorem maskCounters_sorted (chain : List PipelineObject) :
    (visitPipeline chain).maskCounters.Pairwise (fun a b => a.1 < b.1) := by
  induction chain using List.reverseRecOn with
  | nil => exact .nil
  | append_singleton chain x ih =>
    rw [visitPipeline_append]
    unfold findMaskCounters
    split
    · split <;> exact ih
    · split
      · rw [List.pairwise_append]
        refine ⟨ih, List.pairwise_singleton _ _, fun a ha b hb => ?_⟩
        obtain rfl := List.mem_singleton.1 hb
        exact At.lt ((mem_maskCounters chain a.1 a.2).1 ha)
      · exact ih

theorem lastCounter_append (hx : ∀ w, ¬ IsCounter w x) : LastCounter (chain ++ [x]) i w ↔ LastCounter chain i w := by
  have hiff : ∀ j w, CounterAt (chain ++ [x]) j w ↔ CounterAt chain j w := fun j w => by
    rw [CounterAt, at_append, or_iff_left (fun h => hx w h.2)]
  exact ⟨fun h => ⟨(hiff i w).1 h.counter, fun j w' hj => h.last j w' ((hiff j w').2 hj)⟩,
    fun h => ⟨(hiff i w).2 h.counter, fun j w' hj => h.last j w' ((hiff j w').1 hj)⟩⟩

theorem lastCounter_of_maskCounters {l : List (Nat × List Char)} {a : Nat × List Char}
    (h : (visitPipeline chain).maskCounters = l ++ [a]) : LastCounter chain a.1 a.2 := by
  have hsorted := maskCounters_sorted chain
  rw [h, List.pairwise_append] at hsorted
  refine ⟨(mem_maskCounters chain a.1 a.2).1 (by rw [h]; simp), fun j w hj => ?_⟩
  have hmem := (mem_maskCounters chain j w).2 hj
  rw [h] at hmem
  rcases List.mem_append.1 hmem with hl | ha
  · exact (hsorted.2.2 _ hl a (.head _)).le
  · rw [← List.mem_singleton.1 ha]

theorem exists_lastCounter (h : (visitPipeline chain).maskCounters ≠ []) : ∃ i w, LastCounter chain i w := by
  rcases List.eq_nil_or_concat (visitPipeline chain).maskCounters with hnil | ⟨l, a, hl⟩
  · exact absurd hnil h
  · exact ⟨a.1, a.2, lastCounter_of_maskCounters (by rw [hl, List.concat_eq_append])⟩

theorem LastCounter.ne_nil (h : LastCounter chain i w) : (visitPipeline chain).maskCounters ≠ [] :=
  List.ne_nil_of_mem ((mem_maskCounters chain i w).2 h.counter)

def ClipperAfter (chain : List PipelineObject) : Prop := ∃ i w j, LastCounter chain i w ∧ i < j ∧ ClipperAt chain j

theorem clipperAfter_append (hx : ∀ w, ¬ IsCounter w x) (hclip : ¬ IsClipper x) :
    ClipperAfter (chain ++ [x]) ↔ ClipperAfter chain := by
  refine exists_congr (fun i => exists_congr (fun w => exists_congr (fun j => ?_)))
  rw [lastCounter_append hx, ClipperAt, at_append, or_iff_left (fun h => hclip h.2)]

/-- **What the boolean says.** -/
theorem clippersAfter_iff (chain : List PipelineObject) :
    (visitPipeline chain).clippersAfterMaskCounters = true ↔ ClipperAfter chain := by
  induction chain using List.reverseRecOn with
  | nil => exact ⟨fun h => (nomatch h), fun ⟨_, _, _, h, _⟩ => absurd rfl h.ne_nil⟩
  | append_singleton chain x ih =>
    rw [visitPipeline_append]
    unfold findMaskCounters
    split
    · rename_i hclip
      have hclip := isSome_find_iff.1 hclip
      have hx : ∀ w, ¬ IsCounter w x := fun w h => h.1 hclip
      split
      · rename_i hpos
        obtain ⟨i, w, hlast⟩ := exists_lastCounter (List.ne_nil_of_length_pos hpos)
        refine ⟨fun _ => ⟨i, w, chain.length, (lastCounter_append hx).2 hlast, hlast.counter.lt, ?_⟩, fun _ => rfl⟩
        exact at_append.2 (.inr ⟨rfl, hclip⟩)
      · rename_i hnone
        have hno : ∀ i w, ¬ LastCounter chain i w := fun i w h => hnone (List.length_pos_of_ne_nil h.ne_nil)
        rw [ih]
        exact ⟨fun ⟨i, w, _, h, _⟩ => absurd h (hno i w),
          fun ⟨i, w, _, h, _⟩ => absurd ((lastCounter_append hx).1 h) (hno i w)⟩
    · rename_i hclip
      have hclip : ¬ IsClipper x := mt isSome_find_iff.2 hclip
      cases hcounter : x.maskCounter with
      | none =>
        rw [clipperAfter_append (fun w h => nomatch hcounter.symm.trans h.2) hclip]
        exact ih
      | some w' =>
        refine ⟨fun h => (nomatch h), fun ⟨i, w, j, hlast, hij, hj⟩ => ?_⟩
        have hle := hlast.last chain.length w' (at_append.2 (.inr ⟨rfl, hclip, hcounter⟩))
        have hlt := hj.lt
        rw [List.length_append, List.length_singleton] at hlt
        omega

end

/-! ## What is set up -/

section
variable {Object Ringbuf : Type} {pipelines : Pipelines Object Ringbuf} {c : L1Config} {sp : Nat} {beamId : Int}

theorem setMaskCounters_ok (hring : ∀ o a, (pipelines.ringbuf o a).isSome = true) (n : Nat) :
    ∀ (l : List (Nat × List Char)) (i : Nat) (calls : Calls Object Ringbuf), ∃ calls',
      setMaskCounters pipelines c sp beamId n i l calls = (.ok (), calls') ∧
      calls'.set = calls.set ++
        l.mapIdx (fun k x => (pipelines.object x.1, runtimeAttrs c sp beamId n (i + k))) ∧
      (∀ p ∈ calls.put, p ∈ calls'.put) ∧
      ∀ x ∈ l, ∃ ringbuf attrs, (pipelines.object x.1, attrs) ∈ calls'.set ∧
        pipelines.ringbuf (pipelines.object x.1) attrs = some ringbuf ∧ (beamId, x.2, ringbuf) ∈ calls'.put
  | [],                i, calls => ⟨calls, rfl, by simp, fun _ h => h, fun _ h => nomatch h⟩
  | (place, w) :: l, i, calls => by
    obtain ⟨ringbuf, hr⟩ := Option.isSome_iff_exists.1 (hring (pipelines.object place) (runtimeAttrs c sp beamId n i))
    obtain ⟨calls', hrun, hset, hput, hrest⟩ := setMaskCounters_ok hring n l (i + 1)
      ⟨calls.set ++ [(pipelines.object place, runtimeAttrs c sp beamId n i)], calls.put ++ [(beamId, w, ringbuf)]⟩
    refine ⟨calls', ?_, ?_, fun p hp => hput p (List.mem_append_left _ hp), ?_⟩
    · simp only [setMaskCounters, putRingbuf, hr]
      exact hrun
    · rw [hset, List.mapIdx_cons, List.append_assoc]
      simp only [Nat.add_zero, Nat.add_assoc, Nat.add_comm 1, List.singleton_append]
    · intro x hx
      rcases List.mem_cons.1 hx with rfl | hx
      · refine ⟨ringbuf, runtimeAttrs c sp beamId n i, ?_, hr, hput _ (by simp)⟩
        rw [hset]
        simp
      · exact hrest x hx

/-- Why `_init_mask_counters` throws. -/
def Rejects (c : L1Config) (chain : List PipelineObject) : Prop :=
  0 < c.nrfifreq ∧ ((∀ i w, ¬ CounterAt chain i w) ∨ ClipperAfter chain)

/-- **The setup of the mask counters**, or none of it. -/
structure SetsUp (pipelines : Pipelines Object Ringbuf) (c : L1Config) (sp : Nat) (chain : List PipelineObject)
    (beamId : Int) (r : Except Stop Unit × Calls Object Ringbuf) : Prop where
  throws     : (∃ e, r.1 = .error e) ↔ Rejects c chain
  untouched  : (∃ e, r.1 = .error e) → r.2 = ⟨[], []⟩
  fills      : 0 < c.nrfifreq → r.1 = .ok () → ∃ i w, LastCounter chain i w ∧ (∀ j, ClipperAt chain j → j < i) ∧
    r.2.set.filter (fun s => s.2.chimeStream.isSome) =
      [(pipelines.object i, ⟨c.rfiMaskMeasHistory, beamId, some sp⟩)]
  streamless : c.nrfifreq ≤ 0 → ∀ s ∈ r.2.set, s.2.chimeStream = none
  counters   : ∀ s ∈ r.2.set, s.2.chimeBeamId = beamId ∧ ∃ i w, CounterAt chain i w ∧ s.1 = pipelines.object i
  each       : r.1 = .ok () → ∀ i w, CounterAt chain i w → ∃ ringbuf attrs, (pipelines.object i, attrs) ∈ r.2.set ∧
    pipelines.ringbuf (pipelines.object i) attrs = some ringbuf ∧ (beamId, w, ringbuf) ∈ r.2.put

theorem clipper_lt_of_not_after {chain : List PipelineObject} {i j : Nat} {w : List Char} (h : LastCounter chain i w)
    (hno : ¬ ClipperAfter chain) (hj : ClipperAt chain j) : j < i := by
  rcases Nat.lt_trichotomy j i with hlt | rfl | hgt
  · exact hlt
  · obtain ⟨x, hx, hclip⟩ := hj
    obtain ⟨x', hx', hcounter⟩ := h.counter
    obtain rfl : x = x' := Option.some.inj (hx.symm.trans hx')
    exact absurd hclip hcounter.1
  · exact absurd ⟨i, w, j, h, hgt, hj⟩ hno

theorem length_maskCounters_eq_zero {chain : List PipelineObject} :
    (visitPipeline chain).maskCounters.length = 0 ↔ ∀ i w, ¬ CounterAt chain i w := by
  rw [List.length_eq_zero_iff, List.eq_nil_iff_forall_not_mem, Prod.forall]
  exact forall_congr' (fun i => forall_congr' (fun w => not_congr (mem_maskCounters chain i w)))

theorem run_rejects {chain : List PipelineObject} (h : Rejects c chain) : ∃ e,
    initMaskCounters c sp chain beamId = .error e ∧
      runInitMaskCounters pipelines c sp chain beamId = (.error e, ⟨[], []⟩) := by
  unfold initMaskCounters runInitMaskCounters
  have hrfi : c.nrfifreq > 0 := h.1
  by_cases hno : (visitPipeline chain).maskCounters.length = 0
  · simp only [hrfi, hno, and_self, if_true]
    exact ⟨_, rfl, rfl⟩
  · have hafter := (clippersAfter_iff chain).2 (h.2.resolve_left (fun hnone => hno (length_maskCounters_eq_zero.2 hnone)))
    simp only [hrfi, hno, hafter, and_false, and_self, if_true, if_false]
    exact ⟨_, rfl, rfl⟩

theorem initMaskCounters_of_not_rejects {chain : List PipelineObject} (h : ¬ Rejects c chain) :
    initMaskCounters c sp chain beamId = .ok ((visitPipeline chain).maskCounters.mapIdx (fun i x =>
      ⟨x.1, x.2, runtimeAttrs c sp beamId (visitPipeline chain).maskCounters.length i⟩)) := by
  unfold initMaskCounters
  simp only [gt_iff_lt]
  split <;> rename_i hrfi
  · rw [if_neg (fun hno => h ⟨hrfi, .inl (length_maskCounters_eq_zero.1 hno)⟩),
      if_neg (fun hafter => h ⟨hrfi, .inr ((clippersAfter_iff chain).1 hafter)⟩)]
    rfl
  · rfl

theorem run_of_not_rejects {chain : List PipelineObject} (h : ¬ Rejects c chain) :
    runInitMaskCounters pipelines c sp chain beamId = setMaskCounters pipelines c sp beamId
      (visitPipeline chain).maskCounters.length 0 (visitPipeline chain).maskCounters ⟨[], []⟩ := by
  unfold runInitMaskCounters
  rw [if_neg (fun hno => h ⟨hno.1, .inl (length_maskCounters_eq_zero.1 hno.2)⟩),
    if_neg (fun hafter => h ⟨hafter.1, .inr ((clippersAfter_iff chain).1 hafter.2)⟩)]

/-- The last of the mask counters, and only the last, gets the stream. -/
theorem filter_chimeStream (hrfi : 0 < c.nrfifreq) (l : List (Nat × List Char)) (a : Nat × List Char) :
    ((l ++ [a]).mapIdx (fun k x => (pipelines.object x.1, runtimeAttrs c sp beamId (l ++ [a]).length (0 + k)))).filter
      (fun s => s.2.chimeStream.isSome) = [(pipelines.object a.1, ⟨c.rfiMaskMeasHistory, beamId, some sp⟩)] := by
  have hinit : (l.mapIdx (fun k x => (pipelines.object x.1, runtimeAttrs c sp beamId (l ++ [a]).length (0 + k)))).filter
      (fun s => s.2.chimeStream.isSome) = [] := by
    rw [List.filter_eq_nil_iff]
    intro s hs
    obtain ⟨k, hk, rfl⟩ := List.mem_mapIdx.1 hs
    simp [runtimeAttrs, hk.ne]
  rw [List.mapIdx_concat, List.filter_append, hinit, List.nil_append]
  simp [runtimeAttrs, hrfi]

/-- **`_init_mask_counters`**, for any chain. -/
theorem setsUp_maskCounters (pipelines : Pipelines Object Ringbuf) (c : L1Config) (sp : Nat)
    (chain : List PipelineObject) (beamId : Int) (hring : ∀ o a, (pipelines.ringbuf o a).isSome = true) :
    SetsUp pipelines c sp chain beamId (runInitMaskCounters pipelines c sp chain beamId) := by
  by_cases hrejects : Rejects c chain
  · obtain ⟨e, -, hrun⟩ := @run_rejects _ _ pipelines c sp beamId chain hrejects
    rw [hrun]
    refine ⟨⟨fun _ => hrejects, fun _ => ⟨e, rfl⟩⟩, fun _ => rfl, fun _ h => ?_, fun _ s hs => ?_, fun s hs => ?_,
      fun h => ?_⟩
    · cases h
    · cases hs
    · cases hs
    · cases h
  · rw [run_of_not_rejects hrejects]
    obtain ⟨calls, hrun, hset, -, heach⟩ := @setMaskCounters_ok _ _ pipelines c sp beamId hring
      (visitPipeline chain).maskCounters.length (visitPipeline chain).maskCounters 0 ⟨[], []⟩
    rw [hrun]
    rw [List.nil_append] at hset
    have hmem : ∀ s ∈ calls.set, ∃ k x, x ∈ (visitPipeline chain).maskCounters ∧
        s = (pipelines.object x.1, runtimeAttrs c sp beamId (visitPipeline chain).maskCounters.length (0 + k)) := by
      intro s hs
      rw [hset] at hs
      obtain ⟨k, hk, rfl⟩ := List.mem_mapIdx.1 hs
      exact ⟨k, _, List.getElem_mem hk, rfl⟩
    have hok : ¬ ∃ e, (Except.ok () : Except Stop Unit) = .error e := by
      rintro ⟨e, h⟩
      cases h
    refine ⟨⟨fun h => absurd h hok, fun h => absurd h hrejects⟩, fun h => absurd h hok, fun hrfi _ => ?_,
      fun hrfi s hs => ?_, fun s hs => ?_, fun _ i w hcounter => ?_⟩
    · obtain ⟨l, a, hl⟩ : ∃ l a, (visitPipeline chain).maskCounters = l ++ [a] := by
        rcases List.eq_nil_or_concat (visitPipeline chain).maskCounters with hnil | ⟨l, a, hl⟩
        · exact absurd ⟨hrfi, .inl (length_maskCounters_eq_zero.1 (by rw [hnil]; rfl))⟩ hrejects
        · exact ⟨l, a, by rw [hl, List.concat_eq_append]⟩
      have hlast := lastCounter_of_maskCounters hl
      refine ⟨a.1, a.2, hlast, fun j hj => ?_, ?_⟩
      · exact clipper_lt_of_not_after hlast (fun hafter => hrejects ⟨hrfi, .inr hafter⟩) hj
      · rw [hset, hl]
        exact filter_chimeStream hrfi l a
    · obtain ⟨k, x, -, rfl⟩ := hmem s hs
      exact if_neg (fun h => absurd h.1 (not_lt.2 hrfi))
    · obtain ⟨k, x, hx, rfl⟩ := hmem s hs
      exact ⟨rfl, x.1, x.2, (mem_maskCounters chain x.1 x.2).1 hx, rfl⟩
    · exact heach (i, w) ((mem_maskCounters chain i w).2 hcounter)

/-- Without the effects: what `initMaskCounters` gives is what `set_runtime_attrs` is called with. -/
theorem run_eq_initMaskCounters (hring : ∀ o a, (pipelines.ringbuf o a).isSome = true) (chain : List PipelineObject) :
    (∃ e, initMaskCounters c sp chain beamId = .error e ∧
      runInitMaskCounters pipelines c sp chain beamId = (.error e, ⟨[], []⟩)) ∨
    ∃ counters calls, initMaskCounters c sp chain beamId = .ok counters ∧
      runInitMaskCounters pipelines c sp chain beamId = (.ok (), calls) ∧
      calls.set = counters.map (fun k => (pipelines.object k.place, k.attrs)) := by
  by_cases hrejects : Rejects c chain
  · exact .inl (run_rejects hrejects)
  · obtain ⟨calls, hrun, hset, -, -⟩ := @setMaskCounters_ok _ _ pipelines c sp beamId hring
      (visitPipeline chain).maskCounters.length (visitPipeline chain).maskCounters 0 ⟨[], []⟩
    refine .inr ⟨_, calls, initMaskCounters_of_not_rejects hrejects, (run_of_not_rejects hrejects).trans hrun, ?_⟩
    rw [hset, List.nil_append]
    apply List.ext_getElem
    · simp
    · intro k h₁ h₂
      simp

end

def clippedChain : List PipelineObject :=
  [⟨"pipeline".toList, none⟩, ⟨"mask_counter".toList, some "before".toList⟩, ⟨"intensity_clipper".toList, none⟩,
    ⟨"mask_counter".toList, some "after".toList⟩]

def toyConfig : L1Config :=
  ((Config.l1Config Config.plainEnv Config.toyOptions Config.oneBeam Config.localDisk).1.toOption).get (by decide +kernel)

theorem setsUp_clippedChain : SetsUp ⟨fun i => i, fun i _ => some i⟩ toyConfig 0 clippedChain 7
    (runInitMaskCounters ⟨fun i => i, fun i _ => some i⟩ toyConfig 0 clippedChain 7) :=
  setsUp_maskCounters ⟨fun i => i, fun i _ => some i⟩ toyConfig 0 clippedChain 7 (fun _ _ => rfl)

end Startup
end FrbL1
