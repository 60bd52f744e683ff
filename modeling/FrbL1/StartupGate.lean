import FrbL1.StartupInv
/-!
# StartupGate — when the RPC servers are made

`main` leaves its wait loop only when everything is published (`filled_of_passed`), and then makes the servers by its
own steps (`main_serves`), once all threads are in their loops.  The threads of a toy server publish nothing, and its
`main` never leaves the loop (`toy_waits`).
-/
namespace FrbL1
namespace Startup

open Config
open Posix (Tree)
open Trans (run Reachable Alone alone_of_measure)

variable {S : Setup} {s : State}

structure Filled (S : Setup) (s : State) : Prop where
  slots    : ∀ i < S.nbeams, (s.dedispersers i).isSome ∧ (s.latencyPre i).isSome ∧ (s.latencyPost i).isSome
  counters : ∀ i < S.nbeams, ∃ l, S.counters i = .ok l ∧ ∀ c ∈ l, s.HasPut S i c

/-- All dedispersion threads have reached their loops, or returned. -/
def Settled (S : Setup) (s : State) : Prop := ∀ i < S.nbeams, (s.threads i).settled = true

/-- `gotn == config.nbeams`, where `gotn` is the number of dedispersers there are. -/
def ExitCondition (S : Setup) (s : State) : Prop :=
  Nat.count (fun i => (s.dedispersers i).isSome = true) S.nbeams = S.nbeams

def Served (S : Setup) (s : State) : Prop := s.rpcServers.length = S.nstreams

theorem Inv.slots_isSome (hinv : Inv S s) {i : Nat} (ht : S.toy = false) (hs : (s.threads i).settled = true) :
    (s.dedispersers i).isSome ∧ (s.latencyPre i).isSome ∧ (s.latencyPost i).isSome := by
  obtain ⟨h₁, h⟩ := Prod.mk.inj (hinv.slots_of_settled ht hs)
  obtain ⟨h₂, h₃⟩ := Prod.mk.inj h
  rw [h₁, h₂, h₃]
  exact ⟨rfl, rfl, rfl⟩

theorem Inv.counters_of_settled (hinv : Inv S s) {i : Nat} (ht : S.toy = false) (hs : (s.threads i).settled = true) :
    ∃ l, S.counters i = .ok l ∧ ∀ c ∈ l, s.HasPut S i c := by
  have hadmits := hinv.admits i
  cases hpc : s.threads i with
  | running | returned =>
    rw [hpc] at hadmits
    obtain ⟨l, hl⟩ := hadmits ht
    have hputs := hinv.puts i l hl ht
    rw [hpc] at hputs
    simp only [Pc.nput, List.take_length] at hputs
    exact ⟨l, hl, hputs⟩
  | _ =>
    rw [hpc] at hs
    cases hs

theorem filled_of_passed (hinv : Inv S s) (hp : s.main.passed = true) : Filled S s where
  slots    := fun i hi => hinv.slots_isSome (hinv.passed hp i hi).1 (hinv.passed hp i hi).2
  counters := fun i hi => hinv.counters_of_settled (hinv.passed hp i hi).1 (hinv.passed hp i hi).2

theorem exitCondition_of_settled (hinv : Inv S s) (ht : S.toy = false) (hs : Settled S s) : ExitCondition S s :=
  Nat.count_iff_forall.2 (fun i hi => (hinv.slots_isSome ht (hs i hi)).1)

/-! ## `main` by itself -/

/-- What is left for `main` to do, at most. -/
def MainPc.left (S : Setup) : MainPc → Nat
  | .prometheus _ => 0
  | .spawn _      => S.nstreams + S.nbeams + 5
  | .sleep        => S.nstreams + S.nbeams + 4
  | .acquire      => S.nstreams + S.nbeams + 3
  | .count i _    => S.nstreams + S.nbeams + 2 - i
  | .serve i      => S.nstreams - i
  | .join _       => 0

structure Ready (S : Setup) (s : State) : Prop where
  inv        : Inv S s
  terminated : s.terminated = false
  toy        : S.toy = false
  settled    : Settled S s

theorem Ready.mutex (h : Ready S s) (hm : s.main.holds = false) : s.mutex = none := by
  cases hx : s.mutex with
  | none => rfl
  | some party =>
    cases party with
    | main =>
      rw [h.inv.holderMain.1 hx] at hm
      cases hm
    | thread i =>
      have hholds := (h.inv.holder i).1 hx
      by_cases hi : i < S.nbeams
      · have hsettled := h.settled i hi
        cases hpc : s.threads i with
        | running | returned => rw [hpc] at hholds; cases hholds
        | _ => rw [hpc] at hsettled; cases hsettled
      · have hun := (h.inv.unspawned i).2 (h.inv.nspawned.trans (not_lt.1 hi))
        rw [hun] at hholds
        cases hholds

theorem main_progress (hn : S.nbeams = S.nstreams * S.nbeamsPerStream) (hpos : 0 < S.nbeams) (h : Ready S s)
    (hserved : ¬ Served S s) : ∃ t, step S s .main = some t ∧ Ready S t ∧ t.main.left S < s.main.left S := by
  suffices hmain : ∃ t, mainStep S s = some t ∧ t.threads = s.threads ∧ t.terminated = s.terminated ∧
      t.main.left S < s.main.left S by
    obtain ⟨t, ht, hthreads, hterm, hlt⟩ := hmain
    refine ⟨t, ?_, ⟨h.inv.main hn ht, hterm.trans h.terminated, h.toy, ?_⟩, hlt⟩
    · unfold step
      rw [h.terminated]
      exact ht
    · unfold Settled
      rw [hthreads]
      exact h.settled
  have hun := h.inv.unspawned
  have hlen := congrArg List.length h.inv.rpcServers
  rw [List.length_map, List.length_range] at hlen
  have hspawned : ∀ i, s.main.nspawned S ≤ i → ¬ i < S.nbeams := fun i hle hi => by
    have hsettled := h.settled i hi
    rw [(hun i).2 hle] at hsettled
    cases hsettled
  unfold mainStep
  cases hpc : s.main with
  | prometheus i => exact absurd hpos (hspawned 0 (by rw [hpc]; exact Nat.zero_le _))
  | spawn i =>
    have hi := hspawned i (by rw [hpc]; exact Nat.le_refl _)
    exact ⟨_, if_neg hi, rfl, rfl, by simp only [MainPc.left]; omega⟩
  | acquire =>
    have hm := h.mutex (by rw [hpc]; rfl)
    exact ⟨_, if_pos hm, rfl, rfl, by simp only [MainPc.left]; omega⟩
  | count i gotn =>
    obtain ⟨hle, hgotn⟩ := h.inv.counted i gotn hpc
    by_cases hi : i < S.nbeams
    · exact ⟨_, if_pos hi, rfl, rfl, by simp only [MainPc.left]; omega⟩
    · obtain rfl : i = S.nbeams := by omega
      have hall : gotn = S.nbeams := hgotn.trans (exitCondition_of_settled h.inv h.toy h.settled)
      exact ⟨_, if_neg hi, rfl, rfl, by simp only [if_pos hall, MainPc.left]; omega⟩
  | sleep => exact ⟨_, rfl, rfl, rfl, by simp only [MainPc.left]; omega⟩
  | serve i =>
    have hle := h.inv.nserved
    rw [hpc] at hle hlen
    have hi : i < S.nstreams := lt_of_le_of_ne hle (fun he => hserved (hlen.trans he))
    exact ⟨_, if_pos hi, rfl, rfl, by simp only [MainPc.left]; omega⟩
  | join i =>
    rw [hpc] at hlen
    exact absurd hlen hserved

/-- **Once all threads are in their loops**, `main` makes all servers by its own steps. -/
theorem main_serves (hn : S.nbeams = S.nstreams * S.nbeamsPerStream) (hpos : 0 < S.nbeams) (h : Ready S s) :
    Alone (step S) .main (Served S) s :=
  alone_of_measure (step S) .main (Served S) (Ready S) (fun s => s.main.left S)
    (fun _ hs hP => main_progress hn hpos hs hP) s h

/-! ## A toy server -/

theorem toy_waits (hinv : Inv S s) (ht : S.toy = true) (hpos : 0 < S.nbeams) : s.main.passed = false := by
  by_contra hp
  have hnot := (hinv.passed (by simpa using hp) 0 hpos).1
  rw [ht] at hnot
  cases hnot

/-- The state in which the first `n` threads have been spawned, and the first `k` are in their loops. -/
def toyState (n k : Nat) : State := { State.init with
  main := .spawn n, threads := fun i => if i < k then .running else if i < n then .start else .unspawned }

theorem reachable_prometheus : ∀ i ≤ S.nstreams, Reachable (step S) State.init { State.init with main := .prometheus i }
  | 0,     _  => Reachable.refl _ _
  | i + 1, hi => by
    refine (reachable_prometheus i (by omega)).step (a := .main) ?_
    show some _ = some _
    rw [if_pos (by omega)]

theorem reachable_spawned : ∀ n ≤ S.nbeams, Reachable (step S) State.init (toyState n 0)
  | 0,     _  => by
    refine (reachable_prometheus S.nstreams (Nat.le_refl _)).step (a := .main) ?_
    show some _ = some _
    rw [if_neg (by omega)]
    rfl
  | n + 1, hn => by
    have hthreads : Function.update (toyState n 0).threads n .start = (toyState (n + 1) 0).threads := by
      funext i
      by_cases hi : i = n
      · subst hi
        simp [toyState]
      · simp only [Function.update_of_ne hi, toyState, Nat.not_lt_zero, if_false]
        split <;> split <;> first | rfl | omega
    refine (reachable_spawned n (by omega)).step (a := .main) ?_
    show (if n < S.nbeams then _ else _) = some _
    rw [if_pos (by omega)]
    show some { toyState (n + 1) 0 with threads := Function.update (toyState n 0).threads n .start } = _
    rw [hthreads]

theorem reachable_toyState (ht : S.toy = true) : ∀ k ≤ S.nbeams, Reachable (step S) State.init (toyState S.nbeams k)
  | 0,     _  => reachable_spawned _ (Nat.le_refl _)
  | k + 1, hk => by
    have hpc : (toyState S.nbeams k).threads k = .start := by
      simp only [toyState, Nat.lt_irrefl, if_false]
      exact if_pos (by omega)
    have hthreads : Function.update (toyState S.nbeams k).threads k .running = (toyState S.nbeams (k + 1)).threads := by
      funext i
      by_cases hi : i = k
      · subst hi
        simp [toyState]
      · simp only [Function.update_of_ne hi, toyState]
        have hlt : i < k + 1 ↔ i < k := by omega
        simp only [hlt]
    refine (reachable_toyState ht k (by omega)).step (a := .thread k) ?_
    show threadStep S (toyState S.nbeams k) k = some _
    unfold threadStep
    rw [hpc]
    simp only [if_pos ht]
    show some { toyState S.nbeams k with threads := Function.update (toyState S.nbeams k).threads k .running } = _
    rw [hthreads]
    rfl

/-! ## All servers -/

structure GateOk (S : Setup) (s : State) : Prop where
  passed : s.main.passed = true → Filled S s
  opens  : Settled S s → ExitCondition S s ∧ Alone (step S) .main (Served S) s

theorem gateOk_of_inv (hn : S.nbeams = S.nstreams * S.nbeamsPerStream) (hpos : 0 < S.nbeams) (hinv : Inv S s)
    (hterm : s.terminated = false) (ht : S.toy = false) : GateOk S s where
  passed := filled_of_passed hinv
  opens  := fun hs => ⟨exitCondition_of_settled hinv ht hs, main_serves hn hpos ⟨hinv, hterm, ht, hs⟩⟩

theorem not_gateOk_toyState (hpos : 0 < S.nbeams) : ¬ GateOk S (toyState S.nbeams S.nbeams) := fun h => by
  have hsettled : Settled S (toyState S.nbeams S.nbeams) := fun i hi => by
    simp only [toyState, if_pos hi]
    rfl
  have hsome := (Nat.count_iff_forall.1 (h.opens hsettled).1) 0 hpos
  cases hsome

theorem setup_wired {server : L1Server} (hw : server.Wired) {chain : List PipelineObject} (hchain : chain ≠ []) :
    let S : Setup := ⟨server, chain, hchain⟩
    S.nbeams = S.nstreams * S.nbeamsPerStream ∧ 0 < S.nbeams := by
  have hn := hw.nbeams
  have hpos := hw.nbeams_pos
  have hnn := hw.nstreams_pos
  intro S
  show server.config.nbeams.toNat = server.config.nstreams.toNat * server.config.nbeamsPerStream ∧
    0 < server.config.nbeams.toNat
  refine ⟨?_, by omega⟩
  rw [hn, Int.toNat_mul hnn.le (Int.natCast_nonneg _), Int.toNat_natCast]

/-- **The servers start exactly without `-t`**: for an accepted configuration, every state that is reached without an
exception meets the conditions if and only if the server is not a toy. -/
theorem servers_start {env : Env} {numCores : Int} {opts : Options} {p : Paramfile} {t : Tree} {server : L1Server}
    (h : (l1Server env numCores opts p t).1 = .ok server) (chain : List PipelineObject) (hchain : chain ≠ []) :
    let S : Setup := ⟨server, chain, hchain⟩
    (∀ s, Reachable (step S) State.init s → s.terminated = false → GateOk S s) ↔ server.config.tflag = false := by
  intro S
  obtain ⟨hn, hpos⟩ := setup_wired (l1Server_wired h) hchain
  constructor
  · intro hall
    by_contra ht
    have htoy : S.toy = true := (Bool.not_eq_false _).mp ht
    exact not_gateOk_toyState hpos (hall _ (reachable_toyState htoy _ (Nat.le_refl _)) rfl)
  · intro ht s hs hterm
    exact gateOk_of_inv hn hpos (reachable_inv hn hs) hterm ht

/-! ## A toy server with one beam -/

def toyServer : L1Server := (l1Server plainEnv 20 toyOptions oneBeam localDisk).1.toOption.get (by decide +kernel)

def toySetup : Setup := ⟨toyServer, [⟨"pipeline".toList, none⟩], List.cons_ne_nil _ _⟩

/-- **A toy server never makes its RPC server**, although its thread reaches its loop. -/
theorem toy_never_serves :
    (∃ s, Reachable (step toySetup) State.init s ∧ s.terminated = false ∧ Settled toySetup s ∧ ¬ ExitCondition toySetup s) ∧
      ∀ s, Reachable (step toySetup) State.init s → s.main.passed = false := by
  have htoy : toySetup.toy = true := by decide +kernel
  have hn : toySetup.nbeams = toySetup.nstreams * toySetup.nbeamsPerStream := by decide +kernel
  have hpos : 0 < toySetup.nbeams := by decide +kernel
  refine ⟨⟨toyState toySetup.nbeams toySetup.nbeams, reachable_toyState htoy _ (Nat.le_refl _), rfl, fun i hi => ?_,
    fun hexit => ?_⟩, fun s hs => toy_waits (reachable_inv hn hs) htoy hpos⟩
  · simp only [toyState, if_pos hi]
    rfl
  · have hsome := (Nat.count_iff_forall.1 hexit) 0 hpos
    cases hsome

theorem servers_start_toy : (∀ s, Reachable (step toySetup) State.init s → s.terminated = false → GateOk toySetup s) ↔
    toyServer.config.tflag = false :=
  servers_start (toOption_eq_some.1 (Option.some_get _).symm) _ (List.cons_ne_nil _ _)

end Startup
end FrbL1
