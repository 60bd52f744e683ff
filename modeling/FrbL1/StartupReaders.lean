import FrbL1.StartupGate
/-!
# StartupReaders — who reads a `mask_stats_map`, and when

A map is to become read-only before its first reader.  The RPC handlers meet this, because their servers are made when
all threads are past `set_bonsai` (`ReadOnly` by `filled_of_passed`'s invariant).  The Prometheus servers are there
before the threads: they read a map as soon as it has one entry, and the others are still to come (`readers_safe_iff`).
-/
namespace FrbL1
namespace Startup

open Config
open Posix (Tree)
open Trans (run Reachable)

variable {S : Setup} {s t : State}

/-! ## The readers -/

/-- A step of `main` or of a thread, or a request to a server of a stream. -/
inductive Event
  | step (a : Action)
  | getMaskedFrequencies (istream : Nat)
  | handleGet (istream : Nat)

def MainPc.nstarted (S : Setup) : MainPc → Nat
  | .prometheus i => i
  | _             => S.nstreams

/-- A request changes nothing. -/
def readStep (S : Setup) (s : State) : Event → Option State
  | .step a                       => step S s a
  | .getMaskedFrequencies istream => if s.terminated = false ∧ istream < s.rpcServers.length then some s else none
  | .handleGet istream            => if s.terminated = false ∧ istream < s.main.nstarted S then some s else none

/-- The map that is iterated over.  `handleGet` looks at its size first. -/
def State.iterates (s : State) : Event → Option Nat
  | .step _                       => none
  | .getMaskedFrequencies istream => s.rpcServers[istream]?.map (·.maskStats)
  | .handleGet istream            => if (s.maskStats istream).isEmpty then none else some istream

/-- Nothing more is put into a map. -/
def ReadOnly (S : Setup) (s : State) (istream : Nat) : Prop :=
  ∀ t, Reachable (readStep S) s t → t.maskStats istream = s.maskStats istream

/-- If a map is iterated over, then it is read-only from there. -/
def SafeRead (S : Setup) (s : State) (e : Event) : Prop :=
  ∀ t istream, readStep S s e = some t → s.iterates e = some istream → ReadOnly S t istream

theorem readStep_cases {e : Event} (h : readStep S s e = some t) : (∃ a, e = .step a ∧ step S s a = some t) ∨ t = s := by
  cases e with
  | step a => exact .inl ⟨a, rfl, h⟩
  | getMaskedFrequencies istream | handleGet istream =>
    right
    simp only [readStep] at h
    split at h
    · exact (Option.some.inj h).symm
    · cases h

theorem reachable_readStep : Reachable (readStep S) s t ↔ Reachable (step S) s t := by
  constructor
  · intro h
    refine h.invariant (Reachable (step S) s) (Reachable.refl _ _) (fun u e v hu he => ?_)
    obtain ⟨a, -, ha⟩ | rfl := readStep_cases he
    · exact hu.step ha
    · exact hu
  · intro h
    refine h.invariant (Reachable (readStep S) s) (Reachable.refl _ _) (fun u a v hu ha => ?_)
    apply hu.step (a := .step a)
    exact ha

theorem readOnly_of_invariant {istream : Nat} (I : State → Prop)
    (hstep : ∀ s a t, I s → step S s a = some t → I t ∧ t.maskStats istream = s.maskStats istream) (hs : I s) :
    ReadOnly S s istream := by
  intro t ht
  refine ((reachable_readStep.1 ht).invariant (fun t => I t ∧ t.maskStats istream = s.maskStats istream) ⟨hs, rfl⟩
    (fun u a v hu ha => ?_)).2
  obtain ⟨hI, hmap⟩ := hstep u a v hu.1 ha
  exact ⟨hI, hmap.trans hu.2⟩

/-! ## The puts -/

def Putting (S : Setup) (s : State) (i k : Nat) (c : Counter) : Prop :=
  s.threads i = .put k ∧ ∃ l, S.counters i = .ok l ∧ l[k]? = some c

def Setup.putOf (S : Setup) (s : State) (i : Nat) (c : Counter) : Nat → MaskStatsMap :=
  Function.update s.maskStats (S.istream i) ((s.maskStats (S.istream i)).put (S.beamId i) c.where ⟨i, .ringbuf c.place⟩)

theorem ThreadStep.putOf {i : Nat} (h : ThreadStep S s i t) :
    t.maskStats = s.maskStats ∨ ∃ k c, Putting S s i k c ∧ t.maskStats = S.putOf s i c := by
  cases h with
  | put hpc hl hc => exact .inr ⟨_, _, ⟨hpc, _, hl, hc⟩, rfl⟩
  | _ => exact .inl rfl

theorem mainStep_maskStats (h : mainStep S s = some t) : t.maskStats = s.maskStats := by
  unfold mainStep at h
  split at h <;> (try split at h) <;> cases h <;> rfl

theorem step_putOf {a : Action} (h : step S s a = some t) :
    t.maskStats = s.maskStats ∨ ∃ i k c, a = .thread i ∧ Putting S s i k c ∧ t.maskStats = S.putOf s i c := by
  unfold step at h
  split at h
  · cases h
  · cases a with
    | main => exact .inl (mainStep_maskStats h)
    | thread i =>
      obtain hsame | ⟨k, c, hput, hmap⟩ := (threadStep_cases h).putOf
      · exact .inl hsame
      · exact .inr ⟨i, k, c, rfl, hput, hmap⟩
    | throw i =>
      simp only at h
      split at h
      · cases h
      · exact .inl (Option.some.inj h ▸ rfl)

theorem step_maskStats {a : Action} {istream : Nat} (h : step S s a = some t)
    (hno : ∀ i k c, Putting S s i k c → S.istream i ≠ istream) : t.maskStats istream = s.maskStats istream := by
  obtain hsame | ⟨i, k, c, -, hput, hmap⟩ := step_putOf h
  · rw [hsame]
  · rw [hmap]
    exact Function.update_of_ne (hno i k c hput).symm _ _

theorem length_putOf (i : Nat) (c : Counter) :
    (S.putOf s i c (S.istream i)).length = (s.maskStats (S.istream i)).length + 1 := by
  simp [Setup.putOf, MaskStatsMap.put]

theorem step_put {i k : Nat} {c : Counter} (hterm : s.terminated = false) (h : Putting S s i k c) :
    step S s (.thread i) = some { s.goto i (.put (k + 1)) with maskStats := S.putOf s i c } := by
  obtain ⟨hpc, l, hl, hc⟩ := h
  simp only [step, hterm, threadStep, hpc, hl]
  have hbind : (Except.ok l : Except Stop _).toOption.bind (·[k]?) = some c := hc
  rw [hbind]
  rfl

theorem not_readOnly {i k : Nat} {c : Counter} (ht : Reachable (step S) s t) (hterm : t.terminated = false)
    (h : Putting S t i k c) : ¬ ReadOnly S s (S.istream i) := by
  intro hro
  have hput := step_put hterm h
  have hbefore := hro t (reachable_readStep.2 ht)
  have hafter := hro _ (reachable_readStep.2 (ht.step hput))
  have hlen := length_putOf (S := S) (s := t) i c
  rw [show S.putOf t i c (S.istream i) = _ from hafter, hbefore] at hlen
  omega

/-! ## The RPC handlers -/

theorem step_passed {a : Action} (h : step S s a = some t) (hp : s.main.passed = true) : t.main.passed = true := by
  unfold step at h
  split at h
  · cases h
  · cases a with
    | main =>
      simp only [mainStep] at h
      cases hpc : s.main with
      | serve i | join i =>
        simp only [hpc] at h
        split at h <;> cases h <;> rfl
      | _ =>
        rw [hpc] at hp
        cases hp
    | thread i => rwa [(threadStep_cases h).main.1]
    | throw i =>
      simp only at h
      split at h
      · cases h
      · exact Option.some.inj h ▸ hp

theorem Inv.not_putting (hinv : Inv S s) (hp : s.main.passed = true) {i k : Nat} {c : Counter} : ¬ Putting S s i k c := by
  rintro ⟨hpc, -⟩
  by_cases hi : i < S.nbeams
  · have hsettled := (hinv.passed hp i hi).2
    rw [hpc] at hsettled
    cases hsettled
  · have hun := (hinv.unspawned i).2 (hinv.nspawned.trans (not_lt.1 hi))
    rw [hpc] at hun
    cases hun

theorem readOnly_of_passed (hn : S.nbeams = S.nstreams * S.nbeamsPerStream) (hinv : Inv S s)
    (hp : s.main.passed = true) (istream : Nat) : ReadOnly S s istream := by
  refine readOnly_of_invariant (fun s => Inv S s ∧ s.main.passed = true) (fun u a v hu ha => ?_) ⟨hinv, hp⟩
  refine ⟨⟨inv_step hn hu.1 ha, step_passed ha hu.2⟩, ?_⟩
  apply step_maskStats ha
  exact fun i k c hput => absurd hput (hu.1.not_putting hu.2)

theorem Inv.passed_of_rpcServer (hinv : Inv S s) {istream : Nat} (hi : istream < s.rpcServers.length) :
    s.main.passed = true := by
  rw [hinv.rpcServers, List.length_map, List.length_range] at hi
  cases hpc : s.main with
  | serve i | join i => rfl
  | _ =>
    rw [hpc] at hi
    exact absurd hi (Nat.not_lt_zero _)

theorem safe_getMaskedFrequencies (hn : S.nbeams = S.nstreams * S.nbeamsPerStream) (hinv : Inv S s) (istream : Nat) :
    SafeRead S s (.getMaskedFrequencies istream) := by
  intro t m ht hm
  simp only [readStep] at ht
  split at ht
  · rename_i hserver
    obtain rfl := Option.some.inj ht
    exact readOnly_of_passed hn hinv (hinv.passed_of_rpcServer hserver.2) m
  · cases ht

/-! ## The GET handlers -/

/-- The mask counters that each thread puts: those of the RFI chain, unless `_init_mask_counters` rejects it. -/
def Setup.ncounters (S : Setup) : Nat :=
  if S.server.config.nrfifreq > 0 ∧ (visitPipeline S.chain).clippersAfterMaskCounters then 0
  else (visitPipeline S.chain).maskCounters.length

theorem length_counters {i : Nat} {l : List Counter} (h : S.counters i = .ok l) : l.length = S.ncounters := by
  unfold Setup.counters initMaskCounters at h
  unfold Setup.ncounters
  simp only [gt_iff_lt] at h ⊢
  split at h <;> rename_i hrfi
  · split at h
    · cases h
    · split at h
      · cases h
      · rename_i hclip
        rw [if_neg (fun hc => hclip hc.2), ← Except.ok.inj h, List.length_mapIdx]
  · rw [if_neg (fun hc => hrfi hc.1), ← Except.ok.inj h, List.length_mapIdx]

theorem counters_of_ncounters (h : 0 < S.ncounters) (i : Nat) : ∃ l, S.counters i = .ok l := by
  unfold Setup.ncounters at h
  unfold Setup.counters initMaskCounters
  simp only [gt_iff_lt] at h ⊢
  split at h <;> rename_i hclip
  · cases h
  · split <;> rename_i hrfi
    · rw [if_neg h.ne', if_neg (fun hc => hclip ⟨hrfi, hc⟩)]
      exact ⟨_, rfl⟩
    · exact ⟨_, rfl⟩

theorem Inv.putting (hinv : Inv S s) {i k : Nat} {c : Counter} (h : Putting S s i k c) :
    k < S.ncounters ∧ S.toy = false := by
  obtain ⟨hpc, l, hl, hc⟩ := h
  have hadmits := hinv.admits i
  rw [hpc] at hadmits
  refine ⟨?_, hadmits.1⟩
  rw [← length_counters hl]
  exact (List.getElem?_eq_some_iff.1 hc).1

theorem readOnly_of_no_counter (hn : S.nbeams = S.nstreams * S.nbeamsPerStream) (h : S.toy = true ∨ S.ncounters = 0)
    (hinv : Inv S s) (istream : Nat) : ReadOnly S s istream := by
  refine readOnly_of_invariant (Inv S) (fun u a v hu ha => ⟨inv_step hn hu ha, ?_⟩) hinv
  apply step_maskStats ha
  intro i k c hput
  obtain ⟨hk, htoy⟩ := hu.putting hput
  rcases h with ht | h0
  · cases htoy.symm.trans ht
  · exact absurd hk (by omega)

/-! ### One counter, one beam in a stream -/

def Pc.begun : Pc → Bool
  | .unspawned | .start | .put 0 => false
  | _                            => true

theorem ThreadStep.begun {i : Nat} (h : ThreadStep S s i t) (hb : (s.threads i).begun = true) :
    (t.threads i).begun = true := by
  cases h with
  | init hpc =>
    rw [hpc] at hb
    cases hb
  | _ => simp [State.goto, Pc.begun]

theorem mainStep_threads (hinv : Inv S s) (h : mainStep S s = some t) (i : Nat) :
    t.threads i = s.threads i ∨ s.threads i = .unspawned := by
  unfold mainStep at h
  cases hpc : s.main with
  | spawn j =>
    simp only [hpc] at h
    split at h
    · obtain rfl := Option.some.inj h
      by_cases hij : i = j
      · have hun := hinv.unspawned i
        rw [hpc] at hun
        exact .inr (hun.2 hij.ge)
      · exact .inl (Function.update_of_ne hij _ _)
    · exact .inl (Option.some.inj h ▸ rfl)
  | prometheus j | sleep =>
    simp only [hpc] at h
    exact .inl (Option.some.inj h ▸ rfl)
  | acquire | count j gotn | serve j | join j =>
    simp only [hpc] at h
    split at h <;> cases h <;> exact .inl rfl

theorem step_begun (hinv : Inv S s) {a : Action} (h : step S s a = some t) {i : Nat} (hb : (s.threads i).begun = true) :
    (t.threads i).begun = true := by
  unfold step at h
  split at h
  · cases h
  · cases a with
    | main =>
      obtain hsame | hun := mainStep_threads hinv h i
      · rwa [hsame]
      · rw [hun] at hb
        cases hb
    | thread j =>
      have hstep := threadStep_cases h
      by_cases hij : i = j
      · subst hij
        exact hstep.begun hb
      · rwa [(hstep.frame hij).1]
    | throw j =>
      simp only at h
      split at h
      · cases h
      · exact Option.some.inj h ▸ hb

def Begun (s : State) : Prop := ∀ istream, s.maskStats istream ≠ [] → (s.threads istream).begun = true

theorem Begun.step (hone : S.nbeamsPerStream = 1) (hinv : Inv S s) (hb : Begun s) {a : Action}
    (h : step S s a = some t) : Begun t := by
  intro istream hne
  obtain hsame | ⟨i, k, c, rfl, hput, hmap⟩ := step_putOf h
  · rw [hsame] at hne
    exact step_begun hinv h (hb istream hne)
  · have hself : S.istream i = i := by simp [Setup.istream, hone]
    by_cases hi : istream = i
    · subst hi
      have hterm : s.terminated = false := by
        by_contra hterm
        simp [Startup.step, hterm] at h
      obtain rfl := Option.some.inj (h.symm.trans (step_put hterm hput))
      simp [State.goto, Pc.begun]
    · rw [hmap, Setup.putOf, hself, Function.update_of_ne hi] at hne
      exact step_begun hinv h (hb istream hne)

theorem reachable_begun (hn : S.nbeams = S.nstreams * S.nbeamsPerStream) (hone : S.nbeamsPerStream = 1)
    (h : Reachable (step S) State.init s) : Inv S s ∧ Begun s :=
  h.invariant (fun s => Inv S s ∧ Begun s) ⟨Inv.init S, fun _ hne => absurd rfl hne⟩
    (fun _ _ _ hs ha => ⟨inv_step hn hs.1 ha, hs.2.step hone hs.1 ha⟩)

theorem readOnly_of_begun (hn : S.nbeams = S.nstreams * S.nbeamsPerStream) (hone : S.nbeamsPerStream = 1)
    (hc : S.ncounters = 1) (hinv : Inv S s) {istream : Nat} (hb : (s.threads istream).begun = true) :
    ReadOnly S s istream := by
  refine readOnly_of_invariant (fun s => Inv S s ∧ (s.threads istream).begun = true) (fun u a v hu ha => ?_) ⟨hinv, hb⟩
  refine ⟨⟨inv_step hn hu.1 ha, step_begun hu.1 ha hu.2⟩, ?_⟩
  apply step_maskStats ha
  rintro i k c hput rfl
  have hk := (hu.1.putting hput).1
  have hself : S.istream i = i := by simp [Setup.istream, hone]
  obtain rfl : k = 0 := by omega
  have hbegun := hu.2
  rw [hself, hput.1] at hbegun
  cases hbegun

/-! ### More than one -/

theorem step_start (hterm : s.terminated = false) {i : Nat} (hpc : s.threads i = .start) (ht : S.toy = false)
    {l : List Counter} (hl : S.counters i = .ok l) : step S s (.thread i) = some (s.goto i (.put 0)) := by
  simp [step, hterm, threadStep, hpc, ht, hl]

theorem putting_of_lt {i k : Nat} (hk : k < S.ncounters) (hpc : s.threads i = .put k) : ∃ c, Putting S s i k c := by
  obtain ⟨l, hl⟩ := counters_of_ncounters (Nat.zero_lt_of_lt hk) i
  have hlt : k < l.length := (length_counters hl).symm ▸ hk
  exact ⟨l[k], hpc, l, hl, List.getElem?_eq_getElem hlt⟩

def Setup.atFirst (S : Setup) : State := (toyState S.nbeams 0).goto 0 (.put 0)

def Setup.firstPut (S : Setup) (c : Counter) : State :=
  { S.atFirst.goto 0 (.put 1) with maskStats := S.putOf S.atFirst 0 c }

theorem reachable_firstPut (hpos : 0 < S.nbeams) (ht : S.toy = false) (hc : 0 < S.ncounters) :
    ∃ c, Reachable (step S) State.init (S.firstPut c) := by
  obtain ⟨l, hl⟩ := counters_of_ncounters hc 0
  have hstart : (toyState S.nbeams 0).threads 0 = .start := by simp [toyState, hpos]
  have hfirst : Reachable (step S) State.init S.atFirst :=
    (reachable_spawned S.nbeams (Nat.le_refl _)).step (step_start rfl hstart ht hl)
  obtain ⟨c, hput⟩ := putting_of_lt (s := S.atFirst) hc (Function.update_self ..)
  exact ⟨c, hfirst.step (step_put rfl hput)⟩

/-- There is a counter to come: the second one of this thread, or the first one of the second thread. -/
theorem not_readOnly_firstPut (hn : S.nbeams = S.nstreams * S.nbeamsPerStream) (hstreams : 0 < S.nstreams)
    (ht : S.toy = false) (h : 1 < S.nbeamsPerStream * S.ncounters) (c : Counter) : ¬ ReadOnly S (S.firstPut c) 0 := by
  by_cases hmore : 1 < S.ncounters
  · obtain ⟨c', hput⟩ := putting_of_lt (s := S.firstPut c) hmore (Function.update_self ..)
    have hnot := not_readOnly (Reachable.refl _ _) rfl hput
    rwa [show S.istream 0 = 0 from Nat.zero_div _] at hnot
  · have hc : 0 < S.ncounters := Nat.pos_of_ne_zero (fun h0 => by rw [h0, Nat.mul_zero] at h; omega)
    have hone : S.ncounters = 1 := by omega
    rw [hone, Nat.mul_one] at h
    have htwo : 1 < S.nbeams := hn ▸ h.trans_le (Nat.le_mul_of_pos_left _ hstreams)
    have hstart : (S.firstPut c).threads 1 = .start := by simp [Setup.firstPut, Setup.atFirst, State.goto, toyState, htwo]
    obtain ⟨l, hl⟩ := counters_of_ncounters hc 1
    obtain ⟨c', hput⟩ := putting_of_lt (s := (S.firstPut c).goto 1 (.put 0)) hc (Function.update_self ..)
    have hnot := not_readOnly ((Reachable.refl _ _).step (step_start rfl hstart ht hl)) rfl hput
    rwa [show S.istream 1 = 0 from Nat.div_eq_of_lt h] at hnot

theorem not_safe_handleGet (hn : S.nbeams = S.nstreams * S.nbeamsPerStream) (hpos : 0 < S.nbeams) (ht : S.toy = false)
    (h : 1 < S.nbeamsPerStream * S.ncounters) :
    ∃ s, Reachable (readStep S) State.init s ∧ readStep S s (.handleGet 0) = some s ∧
      s.iterates (.handleGet 0) = some 0 ∧ ¬ ReadOnly S s 0 := by
  have hc : 0 < S.ncounters := Nat.pos_of_ne_zero (fun h0 => by rw [h0, Nat.mul_zero] at h; omega)
  have hstreams : 0 < S.nstreams := Nat.pos_of_ne_zero (fun h0 => by rw [h0, Nat.zero_mul] at hn; omega)
  obtain ⟨c, hreach⟩ := reachable_firstPut hpos ht hc
  refine ⟨_, reachable_readStep.2 hreach, if_pos ⟨rfl, hstreams⟩, if_neg ?_,
    not_readOnly_firstPut hn hstreams ht h c⟩
  simp [Setup.firstPut, Setup.putOf, Setup.istream, MaskStatsMap.put]

/-! ## All readers -/

/-- The streams have at most one counter each to be put, or the threads are those of a toy server. -/
theorem safe_handleGet (hn : S.nbeams = S.nstreams * S.nbeamsPerStream) (hpos : 0 < S.nbeams)
    (h : S.toy = true ∨ S.nbeamsPerStream * S.ncounters ≤ 1) (hs : Reachable (step S) State.init s) (istream : Nat) :
    SafeRead S s (.handleGet istream) := by
  intro t m ht hm
  have hinv := reachable_inv hn hs
  simp only [readStep] at ht
  split at ht
  · obtain rfl := Option.some.inj ht
    by_cases hno : S.toy = true ∨ S.ncounters = 0
    · exact readOnly_of_no_counter hn hno hinv m
    · obtain ⟨htoy, hc⟩ := not_or.1 hno
      have hle := h.resolve_left htoy
      have hb : S.nbeamsPerStream ≠ 0 := fun h0 => by rw [h0, Nat.mul_zero] at hn; omega
      have hprod : S.nbeamsPerStream * S.ncounters = 1 :=
        le_antisymm hle (Nat.mul_pos (Nat.pos_of_ne_zero hb) (Nat.pos_of_ne_zero hc))
      have hone := Nat.eq_one_of_mul_eq_one_right hprod
      have hcounter := Nat.eq_one_of_mul_eq_one_left hprod
      simp only [State.iterates] at hm
      split at hm
      · cases hm
      · rename_i hne
        obtain rfl := Option.some.inj hm
        have hbegun := (reachable_begun hn hone hs).2 istream (fun h0 => hne (by rw [h0]; rfl))
        exact readOnly_of_begun hn hone hcounter hinv hbegun
  · cases ht

/-- **When the maps are read-only for their readers**: for `get_masked_frequencies` always; for the GET handlers of an
accepted configuration if and only if no stream has two mask counters to be put. -/
theorem readers_safe_iff {env : Env} {numCores : Int} {opts : Options} {p : Paramfile} {t : Tree} {server : L1Server}
    (h : (l1Server env numCores opts p t).1 = .ok server) (chain : List PipelineObject) (hchain : chain ≠ []) :
    let S : Setup := ⟨server, chain, hchain⟩
    (∀ s, Reachable (readStep S) State.init s → ∀ istream, SafeRead S s (.getMaskedFrequencies istream)) ∧
    ((∀ s, Reachable (readStep S) State.init s → ∀ e, SafeRead S s e) ↔
      server.config.tflag = true ∨ S.nbeamsPerStream * S.ncounters ≤ 1) := by
  intro S
  obtain ⟨hn, hpos⟩ := setup_wired (l1Server_wired h) hchain
  have hrpc : ∀ s, Reachable (readStep S) State.init s → ∀ istream, SafeRead S s (.getMaskedFrequencies istream) :=
    fun s hs istream => safe_getMaskedFrequencies hn (reachable_inv hn (reachable_readStep.1 hs)) istream
  refine ⟨hrpc, fun hall => ?_, fun hcond s hs e => ?_⟩
  · by_contra hcond
    obtain ⟨htoy, hmore⟩ := not_or.1 hcond
    obtain ⟨s, hs, hget, hiter, hnot⟩ := not_safe_handleGet hn hpos ((Bool.not_eq_true _).mp htoy) (not_le.1 hmore)
    exact hnot (hall s hs (.handleGet 0) s 0 hget hiter)
  · cases e with
    | step a => exact fun _ _ _ hm => nomatch hm
    | getMaskedFrequencies istream => exact hrpc s hs istream
    | handleGet istream => exact safe_handleGet hn hpos hcond (reachable_readStep.1 hs) istream

/-! ## One stream with two beams -/

def pairServer : L1Server := (l1Server plainEnv 20 fullOptions (oneStream 2) localDisk).1.toOption.get (by decide +kernel)

def pairSetup : Setup :=
  ⟨pairServer, [⟨"pipeline".toList, none⟩, ⟨"mask_counter".toList, some "last".toList⟩], List.cons_ne_nil _ _⟩

/-- **A GET iterates over the map of the stream, and the second thread still puts its counter.** -/
theorem pair_read_before_put : ∃ s, Reachable (readStep pairSetup) State.init s ∧
    readStep pairSetup s (.handleGet 0) = some s ∧ s.iterates (.handleGet 0) = some 0 ∧ ¬ ReadOnly pairSetup s 0 :=
  not_safe_handleGet (by decide +kernel) (by decide +kernel) (by decide +kernel) (by decide +kernel)

theorem readers_safe_iff_pair : ¬ ∀ s, Reachable (readStep pairSetup) State.init s → ∀ e, SafeRead pairSetup s e :=
  mt (readers_safe_iff (toOption_eq_some.1 (Option.some_get _).symm) _ (List.cons_ne_nil _ _)).2.1 (by decide +kernel)

end Startup
end FrbL1
