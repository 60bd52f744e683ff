import FrbL1.Blocks
import FrbL1.Startup
import Mathlib.Data.Nat.Count
/-!
# StartupInv — the invariant of the start-up

What a thread has published follows from its place (`Setup.published`), and so do the mask counters that it has put.
The mutex is held by the party whose place says so; therefore, while `main` counts, nothing is published, and a thread
whose dedisperser `main` has seen is past `set_bonsai` (`Inv.settled_of_isSome`).
-/
namespace FrbL1
namespace Startup

open Config (toOption_eq_some)
open Trans (Reachable)

/-! ## The invariant -/

/-- The dedispersion threads that have been spawned are the first ones. -/
def MainPc.nspawned (S : Setup) : MainPc → Nat
  | .prometheus _ => 0
  | .spawn i      => i
  | _             => S.nbeams

def MainPc.nserved (S : Setup) : MainPc → Nat
  | .serve i => i
  | .join _  => S.nstreams
  | _        => 0

def MainPc.holds : MainPc → Bool
  | .count _ _ => true
  | _          => false

def MainPc.passed : MainPc → Bool
  | .serve _ | .join _ => true
  | _                  => false

/-- Inside `set_bonsai`, with the mutex. -/
def Pc.holds : Pc → Bool
  | .setDedisperser | .setPre | .setPost | .release => true
  | _                                               => false

def Pc.settled : Pc → Bool
  | .running | .returned => true
  | _                    => false

/-- The mask counters that have been put, of `n`. -/
def Pc.nput (n : Nat) : Pc → Nat
  | .unspawned | .start => 0
  | .put k              => k
  | _                   => n

def Setup.published (S : Setup) (i : Nat) : Pc → Option Obj × Option Obj × Option Obj
  | .setPre              => (some (Setup.bonsai i), none, none)
  | .setPost             => (some (Setup.bonsai i), some (Setup.latency1 i), none)
  | .release             => (some (Setup.bonsai i), some (Setup.latency1 i), some (S.latency2 i))
  | .running | .returned =>
    if S.toy then (none, none, none) else (some (Setup.bonsai i), some (Setup.latency1 i), some (S.latency2 i))
  | _                    => (none, none, none)

def Setup.admits (S : Setup) (i : Nat) : Pc → Prop
  | .unspawned | .start  => True
  | .running | .returned => S.toy = false → ∃ l, S.counters i = .ok l
  | _                    => S.toy = false ∧ ∃ l, S.counters i = .ok l

def State.slots (s : State) (i : Nat) : Option Obj × Option Obj × Option Obj :=
  (s.dedispersers i, s.latencyPre i, s.latencyPost i)

def Setup.rpcServer (S : Setup) (istream : Nat) : RpcServer where
  stream     := S.server.inputStreams.getD istream default
  maskStats  := istream
  bonsais    := (List.range S.nbeamsPerStream).map (fun ib => some (Setup.bonsai (istream * S.nbeamsPerStream + ib)))
  rpcAddress := S.server.config.rpcAddress.getD istream []
  latencies  := (List.range S.nbeamsPerStream).flatMap (fun ib =>
    let ibeam := istream * S.nbeamsPerStream + ib
    [(S.beamId ibeam, "before_rfi", some (Setup.latency1 ibeam)),
     (S.beamId ibeam, "after_rfi", some (S.latency2 ibeam))])

def State.HasPut (S : Setup) (s : State) (i : Nat) (c : Counter) : Prop :=
  ((S.beamId i, c.where), ⟨i, .ringbuf c.place⟩) ∈ s.maskStats (S.istream i)

structure Inv (S : Setup) (s : State) : Prop where
  unspawned  : ∀ i, s.threads i = .unspawned ↔ s.main.nspawned S ≤ i
  nspawned   : s.main.nspawned S ≤ S.nbeams
  admits     : ∀ i, S.admits i (s.threads i)
  slots      : ∀ i, s.slots i = S.published i (s.threads i)
  puts       : ∀ i l, S.counters i = .ok l → S.toy = false → ∀ c ∈ l.take ((s.threads i).nput l.length), s.HasPut S i c
  holder     : ∀ i, s.mutex = some (.thread i) ↔ (s.threads i).holds = true
  holderMain : s.mutex = some .main ↔ s.main.holds = true
  counted    : ∀ i gotn, s.main = .count i gotn →
    i ≤ S.nbeams ∧ gotn = Nat.count (fun j => (s.dedispersers j).isSome = true) i
  passed     : s.main.passed = true → ∀ i < S.nbeams, S.toy = false ∧ (s.threads i).settled = true
  nserved    : s.main.nserved S ≤ S.nstreams
  rpcServers : s.rpcServers = (List.range (s.main.nserved S)).map S.rpcServer

theorem Inv.init (S : Setup) : Inv S State.init where
  unspawned  := fun i => by simp [State.init, MainPc.nspawned]
  nspawned   := Nat.zero_le _
  admits     := fun _ => trivial
  slots      := fun _ => rfl
  puts       := fun i l _ _ c hc => by simp [State.init, Pc.nput] at hc
  holder     := fun i => by simp [State.init, Pc.holds]
  holderMain := by simp [State.init, MainPc.holds]
  counted    := fun i gotn h => nomatch h
  passed     := fun h => nomatch h
  nserved    := Nat.zero_le _
  rpcServers := rfl

/-! ### A thread's step -/

theorem ThreadStep.main {S : Setup} {s s' : State} {i : Nat} (h : ThreadStep S s i s') :
    s'.main = s.main ∧ s'.rpcServers = s.rpcServers := by
  cases h <;> exact ⟨rfl, rfl⟩

theorem ThreadStep.frame {S : Setup} {s s' : State} {i j : Nat} (h : ThreadStep S s i s') (hj : j ≠ i) :
    s'.threads j = s.threads j ∧ s'.slots j = s.slots j := by
  cases h <;> simp [State.goto, State.slots, hj]

theorem ThreadStep.spawned {S : Setup} {s s' : State} {i : Nat} (h : ThreadStep S s i s') :
    s.threads i ≠ .unspawned ∧ s'.threads i ≠ .unspawned := by
  cases h <;> simp [State.goto, *]

theorem ThreadStep.slots {S : Setup} {s s' : State} {i : Nat} (h : ThreadStep S s i s') (hinv : Inv S s) :
    S.admits i (s'.threads i) ∧ s'.slots i = S.published i (s'.threads i) := by
  have hadmits := hinv.admits i
  have hslots := hinv.slots i
  cases h with
  | toy hpc ht =>
    rw [hpc] at hslots
    simp [State.goto, State.slots, Setup.admits, Setup.published, ht] at hslots ⊢
    exact hslots
  | init hpc ht hl =>
    rw [hpc] at hslots
    simp [State.goto, State.slots, Setup.admits, Setup.published, ht, hl] at hslots ⊢
    exact hslots
  | put hpc hl hc =>
    rw [hpc] at hslots hadmits
    simp [State.goto, State.slots, Setup.admits, Setup.published] at hslots hadmits ⊢
    exact ⟨hadmits, hslots⟩
  | putAll hpc hk =>
    rw [hpc] at hslots hadmits
    simp [State.goto, State.slots, Setup.admits, Setup.published] at hslots hadmits ⊢
    exact ⟨hadmits, hslots⟩
  | acquire hpc hm =>
    rw [hpc] at hslots hadmits
    simp [State.goto, State.slots, Setup.admits, Setup.published] at hslots hadmits ⊢
    exact ⟨hadmits, hslots⟩
  | setDedisperser hpc =>
    rw [hpc] at hslots hadmits
    simp [State.goto, State.slots, Setup.admits, Setup.published] at hslots hadmits ⊢
    exact ⟨hadmits, hslots.2⟩
  | setPre hpc =>
    rw [hpc] at hslots hadmits
    simp [State.goto, State.slots, Setup.admits, Setup.published] at hslots hadmits ⊢
    exact ⟨hadmits, hslots.1, hslots.2.2⟩
  | setPost hpc =>
    rw [hpc] at hslots hadmits
    simp [State.goto, State.slots, Setup.admits, Setup.published] at hslots hadmits ⊢
    exact ⟨hadmits, hslots.1, hslots.2.1⟩
  | release hpc =>
    rw [hpc] at hslots hadmits
    simp [State.goto, State.slots, Setup.admits, Setup.published] at hslots hadmits ⊢
    simp [hadmits, hslots]
  | run hpc =>
    rw [hpc] at hslots hadmits
    simp [State.goto, State.slots, Setup.admits, Setup.published] at hslots hadmits ⊢
    exact ⟨hadmits, hslots⟩

theorem ThreadStep.maskStats {S : Setup} {s s' : State} {i : Nat} (h : ThreadStep S s i s') (j : Nat) :
    s.maskStats j ⊆ s'.maskStats j := by
  cases h with
  | put hpc hl hc =>
    by_cases hj : j = S.istream i
    · subst hj
      simp [MaskStatsMap.put]
    · simp [hj]
  | _ => exact List.Subset.refl _

theorem ThreadStep.puts {S : Setup} {s s' : State} {i : Nat} (h : ThreadStep S s i s') (hinv : Inv S s) {l : List Counter}
    (hl : S.counters i = .ok l) (ht : S.toy = false) :
    ∀ c ∈ l.take ((s'.threads i).nput l.length), s'.HasPut S i c := by
  have hold := hinv.puts i l hl ht
  cases h with
  | toy hpc ht' => cases ht.symm.trans ht'
  | init hpc ht' hl' =>
    intro c hc
    simp [State.goto, Pc.nput] at hc
  | @put k hpc l' hl' c hc =>
    obtain rfl : l' = l := Except.ok.inj (hl'.symm.trans hl)
    obtain ⟨hk, rfl⟩ := List.getElem?_eq_some_iff.1 hc
    rw [hpc] at hold
    intro c' hc'
    simp only [State.goto, Function.update_self, Pc.nput] at hc'
    rw [List.take_succ_eq_append_getElem hk, List.mem_append, List.mem_singleton] at hc'
    unfold State.HasPut
    simp only [Function.update_self, MaskStatsMap.put, List.mem_cons]
    rcases hc' with hc' | rfl
    · exact .inr (hold c' hc')
    · exact .inl rfl
  | @putAll k hpc hk =>
    rw [hpc] at hold
    intro c hc
    have hlen := hk l hl
    simp only [State.goto, Function.update_self, Pc.nput, List.take_length] at hc
    simp only [Pc.nput, List.take_of_length_le hlen] at hold
    exact hold c hc
  | acquire hpc | setDedisperser hpc | setPre hpc | setPost hpc | release hpc | run hpc =>
    rw [hpc] at hold
    intro c hc
    simp only [State.goto, Function.update_self, Pc.nput] at hc hold
    exact hold c hc

theorem ThreadStep.holder {S : Setup} {s s' : State} {i : Nat} (h : ThreadStep S s i s') (hinv : Inv S s) :
    (∀ j, s'.mutex = some (.thread j) ↔ (s'.threads j).holds = true) ∧
      (s'.mutex = some .main ↔ s'.main.holds = true) := by
  have hthread := hinv.holder
  have hmain := hinv.holderMain
  have hi := hthread i
  have hother : ∀ j, j ≠ i → (s'.threads j).holds = (s.threads j).holds := fun j hj => by rw [(h.frame hj).1]
  have hsame : (∀ j, s'.mutex = s.mutex → ((s'.threads i).holds = (s.threads i).holds) →
      (s'.mutex = some (.thread j) ↔ (s'.threads j).holds = true)) := fun j hm hh => by
    rw [hm, hthread j]
    by_cases hj : j = i
    · rw [hj, hh]
    · rw [hother j hj]
  cases h with
  | acquire hpc hm =>
    have hfree : ∀ j, (s.threads j).holds = false := fun j => by
      rw [← Bool.not_eq_true, ← hthread j, hm]
      simp
    refine ⟨fun j => ?_, ?_⟩
    · by_cases hj : j = i
      · subst hj
        simp [State.goto, Pc.holds]
      · rw [hother j hj, hfree j]
        simp [Ne.symm hj]
    · rw [hm] at hmain
      simpa [State.goto] using hmain
  | release hpc =>
    rw [hpc] at hi
    have hheld := hi.2 rfl
    refine ⟨fun j => ?_, ?_⟩
    · by_cases hj : j = i
      · subst hj
        simp [State.goto, Pc.holds]
      · rw [hother j hj, ← hthread j, hheld]
        simp [Ne.symm hj]
    · rw [hheld] at hmain
      simpa [State.goto] using hmain
  | toy hpc | init hpc | put hpc | putAll hpc | setDedisperser hpc | setPre hpc | setPost hpc | run hpc =>
    exact ⟨fun j => hsame j rfl (by rw [hpc]; simp [State.goto, Pc.holds]), hmain⟩

theorem ThreadStep.dedispersers {S : Setup} {s s' : State} {i : Nat} (h : ThreadStep S s i s') (hinv : Inv S s)
    (hm : s.mutex = some .main) : s'.dedispersers = s.dedispersers := by
  cases h with
  | setDedisperser hpc =>
    have hheld := (hinv.holder i).2 (by rw [hpc]; rfl)
    cases hm.symm.trans hheld
  | _ => rfl

theorem ThreadStep.settled {S : Setup} {s s' : State} {i : Nat} (h : ThreadStep S s i s')
    (hs : (s.threads i).settled = true) : (s'.threads i).settled = true := by
  cases h with
  | run hpc => simp [State.goto, Pc.settled]
  | toy hpc | init hpc | put hpc | putAll hpc | acquire hpc | setDedisperser hpc | setPre hpc | setPost hpc | release hpc =>
    rw [hpc] at hs
    cases hs

theorem Inv.thread {S : Setup} {s s' : State} {i : Nat} (hinv : Inv S s) (h : ThreadStep S s i s') : Inv S s' := by
  obtain ⟨hmain, hservers⟩ := h.main
  obtain ⟨hholder, hholderMain⟩ := h.holder hinv
  refine ⟨fun j => ?_, ?_, fun j => ?_, fun j => ?_, fun j l hl ht c hc => ?_, hholder, hholderMain, fun k gotn hc => ?_,
    fun hp j hj => ?_, ?_, ?_⟩
  · rw [hmain, ← hinv.unspawned j]
    by_cases hj : j = i
    · subst hj
      exact ⟨fun hu => absurd hu h.spawned.2, fun hu => absurd hu h.spawned.1⟩
    · rw [(h.frame hj).1]
  · rw [hmain]
    exact hinv.nspawned
  · by_cases hj : j = i
    · subst hj
      exact (h.slots hinv).1
    · rw [(h.frame hj).1]
      exact hinv.admits j
  · by_cases hj : j = i
    · subst hj
      exact (h.slots hinv).2
    · rw [(h.frame hj).1, (h.frame hj).2]
      exact hinv.slots j
  · by_cases hj : j = i
    · subst hj
      exact h.puts hinv hl ht c hc
    · rw [(h.frame hj).1] at hc
      exact h.maskStats _ (hinv.puts j l hl ht c hc)
  · rw [hmain] at hc
    rw [h.dedispersers hinv (hinv.holderMain.2 (by rw [hc]; rfl))]
    exact hinv.counted k gotn hc
  · rw [hmain] at hp
    have hpassed := hinv.passed hp j hj
    by_cases hji : j = i
    · subst hji
      exact ⟨hpassed.1, h.settled hpassed.2⟩
    · rw [(h.frame hji).1]
      exact hpassed
  · rw [hmain]
    exact hinv.nserved
  · rw [hmain, hservers]
    exact hinv.rpcServers

/-! ### A step of `main` -/

/-- A thread that has published its dedisperser, and is not inside `set_bonsai`, is in its processing loop. -/
theorem Inv.settled_of_isSome {S : Setup} {s : State} (hinv : Inv S s) {i : Nat} (hd : (s.dedispersers i).isSome = true)
    (hh : (s.threads i).holds = false) : S.toy = false ∧ (s.threads i).settled = true := by
  have hslots := hinv.slots i
  have hadmits := hinv.admits i
  have hfst : s.dedispersers i = (S.published i (s.threads i)).1 := congrArg Prod.fst hslots
  rw [hfst] at hd
  cases hpc : s.threads i with
  | setDedisperser | setPre | setPost | release =>
    rw [hpc] at hh
    cases hh
  | unspawned | start | put | acquire =>
    rw [hpc] at hd
    cases hd
  | running | returned =>
    rw [hpc] at hd
    refine ⟨?_, rfl⟩
    by_contra ht
    have htoy : S.toy = true := by simpa using ht
    simp [Setup.published, htoy] at hd

/-- Conversely, such a thread has published everything, unless it is a toy thread. -/
theorem Inv.slots_of_settled {S : Setup} {s : State} (hinv : Inv S s) {i : Nat} (ht : S.toy = false)
    (hs : (s.threads i).settled = true) :
    s.slots i = (some (Setup.bonsai i), some (Setup.latency1 i), some (S.latency2 i)) := by
  rw [hinv.slots i]
  cases hpc : s.threads i with
  | running | returned => simp [Setup.published, ht]
  | _ =>
    rw [hpc] at hs
    cases hs

theorem Inv.makeRpcServer {S : Setup} {s : State} (hinv : Inv S s) (hp : s.main.passed = true) {istream : Nat}
    (hi : istream < S.nstreams) (hn : S.nbeams = S.nstreams * S.nbeamsPerStream) :
    S.makeRpcServer s istream = S.rpcServer istream := by
  have hslots : ∀ ib ∈ List.range S.nbeamsPerStream, s.slots (istream * S.nbeamsPerStream + ib) =
      (some (Setup.bonsai _), some (Setup.latency1 _), some (S.latency2 _)) := fun ib hib => by
    have hlt : istream * S.nbeamsPerStream + ib < S.nbeams := by
      rw [hn]
      exact Blocks.row_lt hi (List.mem_range.1 hib)
    obtain ⟨ht, hs⟩ := hinv.passed hp _ hlt
    exact hinv.slots_of_settled ht hs
  unfold State.slots at hslots
  unfold Setup.makeRpcServer Setup.rpcServer
  congr 1
  · exact List.map_congr_left (fun ib hib => (Prod.mk.inj (hslots ib hib)).1)
  · rw [List.flatMap_def, List.flatMap_def]
    refine congrArg List.flatten (List.map_congr_left (fun ib hib => ?_))
    obtain ⟨-, h⟩ := Prod.mk.inj (hslots ib hib)
    obtain ⟨hpre, hpost⟩ := Prod.mk.inj h
    simp only [hpre, hpost]

theorem Inv.move {S : Setup} {s : State} (hinv : Inv S s) (m : MainPc) (hspawned : m.nspawned S = s.main.nspawned S)
    (hholds : m.holds = s.main.holds) (hserved : m.nserved S = s.main.nserved S)
    (hcounted : ∀ i gotn, m = .count i gotn →
      i ≤ S.nbeams ∧ gotn = Nat.count (fun j => (s.dedispersers j).isSome = true) i)
    (hpassed : m.passed = true → s.main.passed = true) : Inv S { s with main := m } :=
  { hinv with
    unspawned  := fun i => by rw [hinv.unspawned i, ← hspawned]
    nspawned   := hspawned ▸ hinv.nspawned
    holderMain := by rw [hinv.holderMain, ← hholds]
    counted    := hcounted
    passed     := fun hp => hinv.passed (hpassed hp)
    nserved    := hserved ▸ hinv.nserved
    rpcServers := by rw [hinv.rpcServers, ← hserved] }

theorem Inv.spawn {S : Setup} {s : State} (hinv : Inv S s) {i : Nat} (hpc : s.main = .spawn i) (hi : i < S.nbeams) :
    Inv S { s.goto i .start with main := .spawn (i + 1) } := by
  have hun := hinv.unspawned
  have hholderMain := hinv.holderMain
  have hserved := hinv.rpcServers
  rw [hpc] at hun hholderMain hserved
  have hui : s.threads i = .unspawned := (hun i).2 (Nat.le_refl _)
  have hother : ∀ j, j ≠ i → (s.goto i .start).threads j = s.threads j := fun j hj => Function.update_of_ne hj _ _
  have hself : (s.goto i .start).threads i = .start := Function.update_self ..
  refine { hinv with
    unspawned := fun j => ?_, nspawned := hi, admits := fun j => ?_, slots := fun j => ?_,
    puts := fun j l hl ht c hc => ?_, holder := fun j => ?_, holderMain := hholderMain,
    counted := fun _ _ hc => (nomatch hc), passed := fun hp => (nomatch hp), nserved := Nat.zero_le _,
    rpcServers := hserved }
  · show (s.goto i .start).threads j = .unspawned ↔ i + 1 ≤ j
    by_cases hj : j = i
    · subst hj
      simp [hself]
    · rw [hother j hj, hun j]
      simp only [MainPc.nspawned]
      omega
  · show S.admits j ((s.goto i .start).threads j)
    by_cases hj : j = i
    · rw [hj, hself]
      trivial
    · rw [hother j hj]
      exact hinv.admits j
  · show s.slots j = S.published j ((s.goto i .start).threads j)
    by_cases hj : j = i
    · rw [hj, hself, hinv.slots i, hui]
      rfl
    · rw [hother j hj]
      exact hinv.slots j
  · by_cases hj : j = i
    · simp only [hj, hself, Pc.nput, List.take_zero] at hc
      exact nomatch hc
    · simp only [hother j hj] at hc
      exact hinv.puts j l hl ht c hc
  · show s.mutex = _ ↔ ((s.goto i .start).threads j).holds = true
    rw [hinv.holder j]
    by_cases hj : j = i
    · rw [hj, hself, hui]
      rfl
    · rw [hother j hj]

theorem Inv.lock {S : Setup} {s : State} (hinv : Inv S s) (hpc : s.main = .acquire) (hm : s.mutex = none) :
    Inv S { s with mutex := some .main, main := .count 0 0 } := by
  have hholder := hinv.holder
  have hun := hinv.unspawned
  have hserved := hinv.rpcServers
  rw [hpc] at hun hserved
  rw [hm] at hholder
  refine { hinv with
    unspawned := hun, nspawned := Nat.le_refl _, holder := fun j => ?_, holderMain := ⟨fun _ => rfl, fun _ => rfl⟩,
    counted := fun i gotn hc => ?_, passed := fun hp => (nomatch hp), nserved := Nat.zero_le _, rpcServers := hserved }
  · simpa using hholder j
  · obtain ⟨rfl, rfl⟩ := MainPc.count.inj hc
    exact ⟨Nat.zero_le _, (Nat.count_zero _).symm⟩

theorem Inv.unlock {S : Setup} {s : State} (hinv : Inv S s) {i gotn : Nat} (hpc : s.main = .count i gotn)
    (hi : ¬ i < S.nbeams) : Inv S { s with mutex := none, main := if gotn = S.nbeams then .serve 0 else .sleep } := by
  have hun := hinv.unspawned
  have hserved := hinv.rpcServers
  have hheld := hinv.holderMain.2 (by rw [hpc]; rfl)
  have hfree : ∀ j, (s.threads j).holds = false := fun j => by
    rw [← Bool.not_eq_true, ← hinv.holder j, hheld]
    simp
  obtain ⟨hle, hgotn⟩ := hinv.counted i gotn hpc
  obtain rfl : i = S.nbeams := by omega
  rw [hpc] at hun hserved
  refine { hinv with
    unspawned := fun j => ?_, nspawned := ?_, holder := fun j => ?_, holderMain := ?_, counted := fun k g hc => ?_,
    passed := fun hp j hj => ?_, nserved := ?_, rpcServers := ?_ }
  · split <;> exact hun j
  · split <;> exact Nat.le_refl _
  · simp [hfree j]
  · split <;> simp [MainPc.holds]
  · split at hc <;> cases hc
  · split at hp
    · rename_i hall
      have hcount := (Nat.count_iff_forall.1 (hgotn.symm.trans hall)) j hj
      exact hinv.settled_of_isSome hcount (hfree j)
    · cases hp
  · split <;> exact Nat.zero_le _
  · split <;> exact hserved

theorem Inv.serve {S : Setup} {s : State} (hinv : Inv S s) (hn : S.nbeams = S.nstreams * S.nbeamsPerStream) {i : Nat}
    (hpc : s.main = .serve i) (hi : i < S.nstreams) :
    Inv S { s with rpcServers := s.rpcServers ++ [S.makeRpcServer s i], main := .serve (i + 1) } := by
  have hp : s.main.passed = true := by rw [hpc]; rfl
  have hun := hinv.unspawned
  have hholderMain := hinv.holderMain
  have hserved := hinv.rpcServers
  rw [hpc] at hun hholderMain hserved
  refine { hinv with
    unspawned := hun, nspawned := Nat.le_refl _, holderMain := hholderMain, counted := fun _ _ hc => (nomatch hc),
    passed := fun _ => hinv.passed hp, nserved := hi, rpcServers := ?_ }
  show s.rpcServers ++ _ = (List.range (i + 1)).map S.rpcServer
  rw [hserved, hinv.makeRpcServer hp hi hn, List.range_succ, List.map_append]
  rfl

theorem Inv.main {S : Setup} {s s' : State} (hinv : Inv S s) (hn : S.nbeams = S.nstreams * S.nbeamsPerStream)
    (h : mainStep S s = some s') : Inv S s' := by
  unfold mainStep at h
  split at h
  · rename_i i hpc
    obtain rfl := Option.some.inj h
    split <;> exact hinv.move _ (by rw [hpc]; rfl) (by rw [hpc]; rfl) (by rw [hpc]; rfl) (fun _ _ hc => nomatch hc)
      (fun hp => nomatch hp)
  · rename_i i hpc
    split at h
    · rename_i hi
      exact Option.some.inj h ▸ hinv.spawn hpc hi
    · rename_i hi
      have hle := hinv.nspawned
      rw [hpc] at hle
      simp only [MainPc.nspawned] at hle
      obtain rfl : i = S.nbeams := by omega
      exact Option.some.inj h ▸ hinv.move .acquire (by rw [hpc]; rfl) (by rw [hpc]; rfl) (by rw [hpc]; rfl)
        (fun _ _ hc => nomatch hc) (fun hp => nomatch hp)
  · rename_i hpc
    split at h
    · rename_i hm
      exact Option.some.inj h ▸ hinv.lock hpc hm
    · cases h
  · rename_i i gotn hpc
    split at h
    · rename_i hi
      obtain ⟨-, hgotn⟩ := hinv.counted i gotn hpc
      refine Option.some.inj h ▸ hinv.move _ (by rw [hpc]; rfl) (by rw [hpc]; rfl) (by rw [hpc]; rfl)
        (fun k g hc => ?_) (fun hp => nomatch hp)
      obtain ⟨rfl, rfl⟩ := MainPc.count.inj hc
      refine ⟨hi, ?_⟩
      rw [Nat.count_succ, hgotn]
      split <;> rfl
    · rename_i hi
      exact Option.some.inj h ▸ hinv.unlock hpc hi
  · rename_i hpc
    exact Option.some.inj h ▸ hinv.move .acquire (by rw [hpc]; rfl) (by rw [hpc]; rfl) (by rw [hpc]; rfl)
      (fun _ _ hc => nomatch hc) (fun hp => nomatch hp)
  · rename_i i hpc
    split at h
    · rename_i hi
      exact Option.some.inj h ▸ hinv.serve hn hpc hi
    · rename_i hi
      have hle := hinv.nserved
      rw [hpc] at hle
      simp only [MainPc.nserved] at hle
      obtain rfl : i = S.nstreams := by omega
      exact Option.some.inj h ▸ hinv.move (.join 0) (by rw [hpc]; rfl) (by rw [hpc]; rfl) (by rw [hpc]; rfl)
        (fun _ _ hc => nomatch hc) (fun _ => by rw [hpc]; rfl)
  · rename_i i hpc
    split at h
    · exact Option.some.inj h ▸ hinv.move (.join (i + 1)) (by rw [hpc]; rfl) (by rw [hpc]; rfl) (by rw [hpc]; rfl)
        (fun _ _ hc => nomatch hc) (fun _ => by rw [hpc]; rfl)
    · cases h

theorem inv_step {S : Setup} (hn : S.nbeams = S.nstreams * S.nbeamsPerStream) {s s' : State} {a : Action}
    (hinv : Inv S s) (h : step S s a = some s') : Inv S s' := by
  unfold step at h
  split at h
  · cases h
  · split at h
    · exact hinv.main hn h
    · exact hinv.thread (threadStep_cases h)
    · split at h
      · cases h
      · exact Option.some.inj h ▸ { hinv with }

theorem reachable_inv {S : Setup} (hn : S.nbeams = S.nstreams * S.nbeamsPerStream) {s : State}
    (h : Reachable (step S) State.init s) : Inv S s :=
  h.invariant (Inv S) (Inv.init S) (fun _ _ _ hinv hs => inv_step hn hinv hs)

end Startup
end FrbL1
