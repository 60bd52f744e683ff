import FrbL1.CncDaemon
import Mathlib.Algebra.Order.Ring.Rat
import Mathlib.Tactic.Linarith
import Mathlib.Tactic.Ring
/-!
# CncSsh — running a command on several servers

`CncSsh.run` starts a process for each server and asks all of them again and again whether they have ended, with a
second in between.  What a process has printed is read when it has ended, not before, and a pipe holds only so much: a
process that prints more waits for a reader, and does not end.  The program is Python 2, where a text is bytes.
-/
namespace FrbL1
namespace CncSsh

open Cnc (Bytes)
open Trans

structure Script where
  output     : Bytes
  returncode : Int

structure Proc where
  rest   : Bytes
  pipe   : Bytes
  exited : Option ℚ

/-- Where the loop is: at a server in its pass over them, in `time.sleep`, or at the end.  `running` is `not alldone`. -/
inductive Pc
  | poll (i : Nat) (running : Bool)
  | sleep
  | done
  deriving DecidableEq

/-- Times are in milliseconds from `t0` on.  `listed i` says that `procs[i]` is not `None`, `began` is when the pass began
and `passes` the number of passes so far. -/
structure State where
  procs   : Nat → Proc
  listed  : Nat → Bool
  returns : Nat → Option Int
  outputs : Nat → Bytes
  now     : ℚ
  pc      : Pc
  began   : ℚ
  passes  : Nat

/-- Time passes, a process prints a character or ends, or the loop goes on. -/
inductive Action
  | elapse (dt : ℚ)
  | print (i : Nat)
  | exit (i : Nat)
  | next
  | wake (dt : ℚ)

def Action.isLoop : Action → Bool
  | .next | .wake _ => true
  | _               => false

variable (nservers capacity : Nat) (timeout : ℚ) (script : Nat → Script)

namespace State

def init : State where
  procs   := fun i => ⟨(script i).output, [], none⟩
  listed  := fun _ => true
  returns := fun _ => none
  outputs := fun _ => []
  now     := 0
  pc      := .poll 0 false
  began   := 0
  passes  := 1

variable (s : State)

def setProc (i : Nat) (p : Proc) : State := { s with procs := fun j => if j = i then p else s.procs j }

/-- `returns[i] = r`, `outputs[i] += p.stdout.read()`, `procs[i] = None` -/
def collect (i : Nat) : State :=
  { s with
    listed  := fun j => if j = i then false else s.listed j
    returns := fun j => if j = i then some (script i).returncode else s.returns j
    outputs := fun j => if j = i then s.outputs i ++ (s.procs i).pipe else s.outputs j
    procs   := fun j => if j = i then { s.procs i with pipe := [] } else s.procs j }

/-- The loop over `procs` at `i`. -/
def pollAt (i : Nat) (running : Bool) : State :=
  if s.listed i then
    match (s.procs i).exited with
    | none   => { s with pc := .poll (i + 1) true }
    | some _ => { s.collect script i with pc := .poll (i + 1) running }
  else { s with pc := .poll (i + 1) running }

def rtn : List (Option (Int × Bytes × Bytes)) :=
  (List.range nservers).map (fun i => (s.returns i).map (fun r => (r, s.outputs i, [])))

end State

def step (s : State) : Action → Option State
  | .elapse dt => if 0 ≤ dt then some { s with now := s.now + dt } else none
  | .print i =>
    match (s.procs i).rest with
    | c :: rest =>
      if (s.procs i).pipe.length < capacity then
        some (s.setProc i { s.procs i with rest, pipe := (s.procs i).pipe ++ [c] })
      else none
    | [] => none
  | .exit i =>
    if (s.procs i).rest = [] ∧ (s.procs i).exited = none then some (s.setProc i { s.procs i with exited := some s.now })
    else none
  | .next =>
    match s.pc with
    | .poll i running =>
      if i < nservers then some (s.pollAt script i running)
      else if !running then some { s with pc := .done }
      else if s.now > timeout then some { s with pc := .done }
      else some { s with pc := .sleep }
    | _ => none
  | .wake dt =>
    match s.pc with
    | .sleep =>
      if 1000 ≤ dt then
        some { s with now := s.now + dt, pc := .poll 0 false, began := s.now + dt, passes := s.passes + 1 }
      else none
    | _ => none

/-! ## The processes and their pipes -/

/-- What is known about a server: nothing is read before its process has ended, and then everything. -/
structure State.ProcInv (s : State) (i : Nat) : Prop where
  listed    : s.listed i = true → s.returns i = none ∧ s.outputs i = [] ∧
    (script i).output = (s.procs i).pipe ++ (s.procs i).rest
  collected : s.listed i = false → s.returns i = some (script i).returncode ∧ s.outputs i = (script i).output ∧
    (script i).output.length ≤ capacity
  length    : (s.procs i).pipe.length ≤ capacity
  exited    : (s.procs i).exited.isSome → (s.procs i).rest = []
  gone      : s.listed i = false → (s.procs i).exited.isSome

/-- The servers before `k` whose processes ran when the pass came to them: they have not ended before the pass. -/
def State.Passed (s : State) (k : Nat) (running : Bool) : Prop :=
  ∀ j < k, s.listed j = true → running = true ∧ ∀ e ∈ (s.procs j).exited, s.began ≤ e

def State.PassInv (s : State) : Prop :=
  match s.pc with
  | .poll k running => k ≤ nservers ∧ s.Passed k running
  | .sleep          => 1000 * ((s.passes : ℚ) - 1) ≤ timeout
  | .done           => s.Passed nservers false ∨ timeout < s.now ∧ s.Passed nservers true

structure State.Inv (s : State) : Prop where
  proc           : ∀ i, s.ProcInv capacity script i
  began_le       : s.began ≤ s.now
  passes_began   : 1000 * ((s.passes : ℚ) - 1) ≤ s.began
  passes_timeout : 1000 * ((s.passes : ℚ) - 2) ≤ max timeout 0
  pass           : s.PassInv nservers timeout

variable {nservers capacity timeout script}

theorem inv_init : (State.init script).Inv nservers capacity timeout script where
  proc i := ⟨fun _ => ⟨rfl, rfl, rfl⟩, fun h => (nomatch h), Nat.zero_le _, fun h => (nomatch h), fun h => (nomatch h)⟩
  began_le := le_refl _
  passes_began := by norm_num [State.init]
  passes_timeout := le_trans (by norm_num [State.init]) (le_max_right _ _)
  pass := ⟨Nat.zero_le _, fun j hj => absurd hj (Nat.not_lt_zero j)⟩

namespace State

variable {s : State}

theorem ProcInv.congr {s' : State} {i : Nat} (h : s.ProcInv capacity script i) (hproc : s'.procs i = s.procs i)
    (hlisted : s'.listed i = s.listed i) (hreturns : s'.returns i = s.returns i)
    (houtputs : s'.outputs i = s.outputs i) : s'.ProcInv capacity script i := by
  obtain ⟨h₁, h₂, h₃, h₄, h₅⟩ := h
  constructor <;> simp only [hproc, hlisted, hreturns, houtputs]
  exacts [h₁, h₂, h₃, h₄, h₅]

theorem Passed.mono {k : Nat} {running : Bool} (h : s.Passed k running) : s.Passed k true :=
  fun j hj hl => ⟨rfl, (h j hj hl).2⟩

/-- A process prints or ends: the loop's variables stay, and so does what the pass has seen. -/
theorem Inv.setProc (h : s.Inv nservers capacity timeout script) {i : Nat} {p : Proc} (hlisted : s.listed i = true)
    (hpipe : p.pipe ++ p.rest = (s.procs i).pipe ++ (s.procs i).rest) (hlength : p.pipe.length ≤ capacity)
    (hexited : p.exited.isSome → p.rest = [])
    (hbegan : (∀ e ∈ (s.procs i).exited, s.began ≤ e) → ∀ e ∈ p.exited, s.began ≤ e) :
    (s.setProc i p).Inv nservers capacity timeout script := by
  have hpassed : ∀ k running, s.Passed k running → (s.setProc i p).Passed k running := fun k running hk j hj hl => by
    obtain ⟨hrunning, he⟩ := hk j hj hl
    refine ⟨hrunning, ?_⟩
    by_cases hji : j = i
    · subst hji
      simp only [State.setProc, if_pos]
      exact hbegan he
    · simp only [State.setProc, if_neg hji]
      exact he
  refine ⟨fun j => ?_, h.began_le, h.passes_began, h.passes_timeout, ?_⟩
  · by_cases hji : j = i
    · subst hji
      obtain ⟨hr, ho, hout⟩ := (h.proc j).listed hlisted
      refine ⟨fun _ => ⟨hr, ho, ?_⟩, fun hn => (nomatch hlisted.symm.trans hn), ?_, ?_,
        fun hn => (nomatch hlisted.symm.trans hn)⟩
      all_goals simp only [State.setProc, if_pos]
      · exact hout.trans hpipe.symm
      · exact hlength
      · exact hexited
    · exact (h.proc j).congr (if_neg hji) rfl rfl rfl
  · have hpass := h.pass
    unfold PassInv at hpass ⊢
    show match s.pc with | .poll k running => _ | .sleep => _ | .done => _
    cases hpc : s.pc with
    | poll k running =>
      rw [hpc] at hpass
      exact ⟨hpass.1, hpassed _ _ hpass.2⟩
    | sleep =>
      rw [hpc] at hpass
      exact hpass
    | done =>
      rw [hpc] at hpass
      exact hpass.imp (hpassed _ _) (fun h => ⟨h.1, hpassed _ _ h.2⟩)

theorem passed_succ {s' : State} {i : Nat} {running running' : Bool} (h : s.Passed i running)
    (hbefore : ∀ j < i, s'.listed j = s.listed j ∧ (s'.procs j).exited = (s.procs j).exited)
    (hbegan : s'.began = s.began)
    (hrunning : running = true → running' = true)
    (hi : s'.listed i = true → running' = true ∧ ∀ e ∈ (s'.procs i).exited, s'.began ≤ e) :
    s'.Passed (i + 1) running' := by
  intro j hj hl
  obtain hlt | rfl := Nat.lt_succ_iff_lt_or_eq.1 hj
  · obtain ⟨hlisted, hexited⟩ := hbefore j hlt
    obtain ⟨hr, he⟩ := h j hlt (hlisted ▸ hl)
    rw [hexited, hbegan]
    exact ⟨hrunning hr, he⟩
  · exact hi hl

theorem Inv.pollAt (h : s.Inv nservers capacity timeout script) {i : Nat} {running : Bool} (hpc : s.pc = .poll i running)
    (hi : i < nservers) : (s.pollAt script i running).Inv nservers capacity timeout script := by
  have hpass := h.pass
  unfold PassInv at hpass
  rw [hpc] at hpass
  obtain ⟨-, hpassed⟩ := hpass
  unfold State.pollAt
  split
  · rename_i hlisted
    cases hexited : (s.procs i).exited with
    | none =>
      refine ⟨fun j => (h.proc j).congr rfl rfl rfl rfl, h.began_le, h.passes_began, h.passes_timeout, hi, ?_⟩
      exact passed_succ hpassed (fun j _ => ⟨rfl, rfl⟩) rfl (fun _ => rfl)
        (fun _ => ⟨rfl, fun e he => by rw [hexited] at he; cases he⟩)
    | some e =>
      have hrest : (s.procs i).rest = [] := (h.proc i).exited (by rw [hexited]; rfl)
      obtain ⟨-, hout, hprinted⟩ := (h.proc i).listed hlisted
      rw [hrest, List.append_nil] at hprinted
      have hne : ∀ j < i, j ≠ i := fun j hj => Nat.ne_of_lt hj
      refine ⟨fun j => ?_, h.began_le, h.passes_began, h.passes_timeout, hi, ?_⟩
      · by_cases hji : j = i
        · subst hji
          refine ⟨fun hl => ?_, fun _ => ⟨?_, ?_, ?_⟩, ?_, fun _ => ?_, fun _ => ?_⟩
          all_goals simp only [collect, if_pos, reduceCtorEq] at *
          · rw [hout, hprinted]
            rfl
          · rw [hprinted]
            exact (h.proc j).length
          · exact Nat.zero_le _
          · exact hrest
          · rw [hexited]
            rfl
        · exact (h.proc j).congr (if_neg hji) (if_neg hji) (if_neg hji) (if_neg hji)
      · refine passed_succ hpassed (fun j hj => ?_) rfl id (fun hl => ?_)
        · exact ⟨if_neg (hne j hj), congrArg Proc.exited (if_neg (hne j hj))⟩
        · simp only [collect, if_pos] at hl
          cases hl
  · rename_i hlisted
    refine ⟨fun j => (h.proc j).congr rfl rfl rfl rfl, h.began_le, h.passes_began, h.passes_timeout, hi, ?_⟩
    exact passed_succ hpassed (fun j _ => ⟨rfl, rfl⟩) rfl id (fun hl => absurd hl hlisted)

theorem Inv.step (h : s.Inv nservers capacity timeout script) {a : Action} {s' : State}
    (hs : CncSsh.step nservers capacity timeout script s a = some s') : s'.Inv nservers capacity timeout script := by
  have hproc : ∀ {s' : State}, s'.procs = s.procs → s'.listed = s.listed → s'.returns = s.returns →
      s'.outputs = s.outputs → ∀ i, s'.ProcInv capacity script i := fun hp hl hr ho i =>
    (h.proc i).congr (congrFun hp i) (congrFun hl i) (congrFun hr i) (congrFun ho i)
  cases a with
  | elapse dt =>
    obtain ⟨hdt, hs⟩ := Option.ite_none_right_eq_some.1 hs
    obtain rfl := Option.some.inj hs
    have hnow : s.now ≤ s.now + dt := by linarith
    refine ⟨hproc rfl rfl rfl rfl, h.began_le.trans hnow, h.passes_began, h.passes_timeout, ?_⟩
    have hpass := h.pass
    unfold PassInv at hpass ⊢
    show match s.pc with | .poll k running => _ | .sleep => _ | .done => _
    cases hpc : s.pc with
    | poll k running =>
      rw [hpc] at hpass
      exact hpass
    | sleep =>
      rw [hpc] at hpass
      exact hpass
    | done =>
      rw [hpc] at hpass
      exact hpass.imp_right (fun h => ⟨h.1.trans_le hnow, h.2⟩)
  | print i =>
    unfold CncSsh.step at hs
    simp only at hs
    split at hs
    · rename_i c rest hrest
      obtain ⟨hroom, hs⟩ := Option.ite_none_right_eq_some.1 hs
      obtain rfl := Option.some.inj hs
      -- a process whose output is read has nothing left to print
      have hexited : (s.procs i).exited = none := by
        by_contra hne
        have hnil := (h.proc i).exited (Option.isSome_iff_ne_none.2 hne)
        rw [hrest] at hnil
        cases hnil
      have hlisted : s.listed i = true := by
        by_contra hne
        have hgone := (h.proc i).gone (Bool.eq_false_iff.2 hne)
        rw [hexited] at hgone
        cases hgone
      refine h.setProc hlisted ?_ ?_ ?_ id
      · rw [hrest, List.append_assoc, List.singleton_append]
      · rw [List.length_append, List.length_singleton]
        exact hroom
      · rw [hexited]
        exact fun hn => (nomatch hn)
    · cases hs
  | exit i =>
    obtain ⟨⟨hrest, hexited⟩, hs⟩ := Option.ite_none_right_eq_some.1 hs
    obtain rfl := Option.some.inj hs
    have hlisted : s.listed i = true := by
      by_contra hne
      have hgone := (h.proc i).gone (Bool.eq_false_iff.2 hne)
      rw [hexited] at hgone
      cases hgone
    refine h.setProc hlisted rfl (h.proc i).length (fun _ => hrest) (fun _ e he => ?_)
    obtain rfl := Option.some.inj he
    exact h.began_le
  | next =>
    unfold CncSsh.step at hs
    simp only at hs
    split at hs
    · rename_i i running hpc
      have hpass := h.pass
      unfold PassInv at hpass
      rw [hpc] at hpass
      obtain ⟨hle, hpassed⟩ := hpass
      by_cases hi : i < nservers
      · rw [if_pos hi] at hs
        obtain rfl := Option.some.inj hs
        exact h.pollAt hpc hi
      · obtain rfl : i = nservers := by omega
        rw [if_neg hi] at hs
        split at hs
        · rename_i hrunning
          obtain rfl := Option.some.inj hs
          rw [Bool.not_eq_true'] at hrunning
          subst hrunning
          exact ⟨hproc rfl rfl rfl rfl, h.began_le, h.passes_began, h.passes_timeout, .inl hpassed⟩
        · split at hs
          · rename_i hlate
            obtain rfl := Option.some.inj hs
            exact ⟨hproc rfl rfl rfl rfl, h.began_le, h.passes_began, h.passes_timeout, .inr ⟨hlate, hpassed.mono⟩⟩
          · rename_i hearly
            obtain rfl := Option.some.inj hs
            exact ⟨hproc rfl rfl rfl rfl, h.began_le, h.passes_began, h.passes_timeout,
              (h.passes_began.trans h.began_le).trans (not_lt.1 hearly)⟩
    · cases hs
  | wake dt =>
    unfold CncSsh.step at hs
    simp only at hs
    split at hs
    · rename_i hpc
      obtain ⟨hdt, hs⟩ := Option.ite_none_right_eq_some.1 hs
      obtain rfl := Option.some.inj hs
      have hsleep := h.pass
      unfold PassInv at hsleep
      rw [hpc] at hsleep
      have hbegan := h.passes_began.trans h.began_le
      refine ⟨hproc rfl rfl rfl rfl, le_refl _, ?_, ?_, Nat.zero_le _, fun j hj => absurd hj (Nat.not_lt_zero j)⟩
      · show 1000 * (((s.passes + 1 : Nat) : ℚ) - 1) ≤ s.now + dt
        push_cast
        linarith
      · refine le_trans (le_of_eq_of_le ?_ hsleep) (le_max_left _ _)
        show 1000 * (((s.passes + 1 : Nat) : ℚ) - 2) = _
        push_cast
        ring
    · cases hs

/-! ## What is returned -/

theorem getElem?_rtn {i : Nat} (hi : i < nservers) :
    (s.rtn nservers)[i]? = some ((s.returns i).map (fun r => (r, s.outputs i, []))) := by
  unfold State.rtn
  rw [List.getElem?_map, List.getElem?_range hi]
  rfl

def pos (nservers : Nat) (s : State) : Nat :=
  match s.pc with
  | .poll i _ => i
  | _         => nservers + 1

theorem pos_pollAt (i : Nat) (running : Bool) : (s.pollAt script i running).pos nservers = i + 1 ∧
    (s.pollAt script i running).passes = s.passes := by
  unfold State.pollAt
  split
  · split <;> exact ⟨rfl, rfl⟩
  · exact ⟨rfl, rfl⟩

/-- A step of the loop is one step in its pass, or begins the next. -/
theorem count_step (h : s.Inv nservers capacity timeout script) {a : Action} {s' : State}
    (hs : CncSsh.step nservers capacity timeout script s a = some s') :
    s.passes * (nservers + 2) + s.pos nservers + (if a.isLoop then 1 else 0) =
      s'.passes * (nservers + 2) + s'.pos nservers := by
  unfold CncSsh.step at hs
  cases a with
  | elapse dt =>
    obtain ⟨-, hs⟩ := Option.ite_none_right_eq_some.1 hs
    obtain rfl := Option.some.inj hs
    rfl
  | print i =>
    simp only at hs
    split at hs
    · obtain ⟨-, hs⟩ := Option.ite_none_right_eq_some.1 hs
      obtain rfl := Option.some.inj hs
      rfl
    · cases hs
  | exit i =>
    obtain ⟨-, hs⟩ := Option.ite_none_right_eq_some.1 hs
    obtain rfl := Option.some.inj hs
    rfl
  | next =>
    simp only at hs
    split at hs
    · rename_i i running hpc
      have hpass := h.pass
      unfold PassInv at hpass
      rw [hpc] at hpass
      have hpos : s.pos nservers = i := by rw [pos, hpc]
      split at hs
      · obtain rfl := Option.some.inj hs
        have hpoll : (s.pollAt script i running).pos nservers = i + 1 ∧ (s.pollAt script i running).passes = s.passes :=
          pos_pollAt i running
        obtain ⟨hpos', hpasses⟩ := hpoll
        rw [hpos, hpos', hpasses]
        rfl
      · obtain rfl : i = nservers := by have := hpass.1; omega
        have hend : ∀ pc, pc = Pc.sleep ∨ pc = Pc.done → s.passes * (i + 2) + s.pos i + 1 =
            s.passes * (i + 2) + State.pos i { s with pc } := fun pc hpc' => by
          rw [hpos]
          obtain rfl | rfl := hpc' <;> rfl
        split at hs
        · obtain rfl := Option.some.inj hs
          exact hend _ (.inr rfl)
        · split at hs
          · obtain rfl := Option.some.inj hs
            exact hend _ (.inr rfl)
          · obtain rfl := Option.some.inj hs
            exact hend _ (.inl rfl)
    · cases hs
  | wake dt =>
    simp only at hs
    split at hs
    · rename_i hpc
      obtain ⟨-, hs⟩ := Option.ite_none_right_eq_some.1 hs
      obtain rfl := Option.some.inj hs
      have hpos : s.pos nservers = nservers + 1 := by rw [pos, hpc]
      rw [hpos]
      show _ = (s.passes + 1) * (nservers + 2) + 0
      rw [Nat.succ_mul]
      rfl
    · cases hs

theorem count_run : ∀ (as : List Action) (s s' : State), s.Inv nservers capacity timeout script →
    run (CncSsh.step nservers capacity timeout script) s as = some s' →
    s.passes * (nservers + 2) + s.pos nservers + as.countP Action.isLoop = s'.passes * (nservers + 2) + s'.pos nservers
  | [], s, s', _, h => by
    obtain rfl : s = s' := Option.some.inj h
    rfl
  | a :: as, s, s', hs, h => by
    obtain ⟨t, ht, h⟩ := (run_cons_eq_some _ s s' a as).1 h
    rw [← count_run as t s' (hs.step ht) h, ← count_step hs ht, List.countP_cons]
    omega

theorem pos_le (h : s.Inv nservers capacity timeout script) : s.pos nservers ≤ nservers + 1 := by
  have hpass := h.pass
  unfold PassInv at hpass
  unfold pos
  cases hpc : s.pc with
  | poll i running =>
    rw [hpc] at hpass
    exact Nat.le_succ_of_le hpass.1
  | sleep => exact le_refl _
  | done => exact le_refl _

end State

/-- **The loop ends**: until then it can always go on, and it does so only so often. -/
theorem run_ends {as : List Action} {s : State}
    (h : run (step nservers capacity timeout script) (State.init script) as = some s) :
    (as.countP Action.isLoop : ℚ) ≤ (2 + max timeout 0 / 1000) * (nservers + 2) ∧
      (s.pc ≠ .done → ∃ a, a.isLoop = true ∧ (step nservers capacity timeout script s a).isSome) := by
  have hinv : s.Inv nservers capacity timeout script :=
    run_invariant _ _ (fun _ _ _ hs ha => hs.step ha) as _ s inv_init h
  constructor
  · have hcount := State.count_run as _ s inv_init h
    have hpos := State.pos_le hinv
    have hle : as.countP Action.isLoop ≤ s.passes * (nservers + 2) := by
      have hinit : (State.init script).passes * (nservers + 2) + (State.init script).pos nservers = nservers + 2 :=
        Nat.one_mul _
      omega
    have hpasses : (s.passes : ℚ) ≤ 2 + max timeout 0 / 1000 := by
      have := hinv.passes_timeout
      linarith
    calc (as.countP Action.isLoop : ℚ) ≤ s.passes * (nservers + 2) := by exact_mod_cast hle
      _ ≤ (2 + max timeout 0 / 1000) * (nservers + 2) := mul_le_mul_of_nonneg_right hpasses (by positivity)
  · intro hdone
    cases hpc : s.pc with
    | poll i running =>
      refine ⟨.next, rfl, ?_⟩
      unfold step
      simp only [hpc]
      split
      · rfl
      · split
        · rfl
        · split <;> rfl
    | sleep =>
      refine ⟨.wake 1000, rfl, ?_⟩
      unfold step
      simp only [hpc]
      rfl
    | done => exact absurd hpc hdone

/-- **What is returned for a server**: what its process printed and its return code, or nothing.  Nothing only after the
timeout, and only if the process has not ended before the last pass; it never ends if it prints more than the pipe holds. -/
theorem run_returned {as : List Action} {s : State}
    (h : run (step nservers capacity timeout script) (State.init script) as = some s) (hdone : s.pc = .done) :
    ∀ i < nservers,
      (s.rtn nservers)[i]? = some (some ((script i).returncode, (script i).output, [])) ∧
        (s.procs i).exited.isSome ∧ (script i).output.length ≤ capacity ∨
      (s.rtn nservers)[i]? = some none ∧ timeout < s.now ∧
        ∀ e ∈ (s.procs i).exited, s.began ≤ e ∧ (script i).output.length ≤ capacity := by
  have hinv : s.Inv nservers capacity timeout script :=
    run_invariant _ _ (fun _ _ _ hs ha => hs.step ha) as _ s inv_init h
  have hpass := hinv.pass
  unfold State.PassInv at hpass
  rw [hdone] at hpass
  intro i hi
  rw [State.getElem?_rtn hi]
  cases hlisted : s.listed i with
  | false =>
    obtain ⟨hreturns, houtputs, hlength⟩ := (hinv.proc i).collected hlisted
    rw [hreturns, houtputs]
    exact .inl ⟨rfl, (hinv.proc i).gone hlisted, hlength⟩
  | true =>
    obtain ⟨hreturns, -, hprinted⟩ := (hinv.proc i).listed hlisted
    have hlate : timeout < s.now ∧ ∀ e ∈ (s.procs i).exited, s.began ≤ e := by
      obtain hall | ⟨hlate, hsome⟩ := hpass
      · exact absurd (hall i hi hlisted).1 (by decide)
      · exact ⟨hlate, (hsome i hi hlisted).2⟩
    refine .inr ⟨by rw [hreturns]; rfl, hlate.1, fun e he => ⟨hlate.2 e he, ?_⟩⟩
    have hrest := (hinv.proc i).exited (Option.isSome_iff_exists.2 ⟨e, he⟩)
    rw [hprinted, hrest, List.append_nil]
    exact (hinv.proc i).length

/-! ## A process that prints too much -/

def wordy : Nat → Script
  | 0 => ⟨['o', 'k'], 0⟩
  | _ => ⟨['b', 'y', 'e'], 0⟩

def wordyRun : List Action :=
  [.print 0, .print 1, .print 0, .exit 0, .print 1, .next, .next, .next, .wake 1000, .next, .next, .next]

theorem run_wordy : ∃ s, run (step 2 2 500 wordy) (State.init wordy) wordyRun = some s ∧ s.pc = .done := by
  have h : (run (step 2 2 500 wordy) (State.init wordy) wordyRun).map (·.pc) = some .done := by decide +kernel
  exact Option.map_eq_some_iff.1 h

theorem run_returned_wordy : ∃ s, run (step 2 2 500 wordy) (State.init wordy) wordyRun = some s ∧
    (s.rtn 2)[1]? = some none ∧ 500 < s.now := by
  obtain ⟨s, hs, hdone⟩ := run_wordy
  obtain ⟨-, -, hfits⟩ | ⟨hnone, hlate, -⟩ := run_returned hs hdone 1 (by decide)
  · exact absurd hfits (by decide)
  · exact ⟨s, hs, hnone, hlate⟩

theorem run_ends_wordy : ∃ s, run (step 2 2 500 wordy) (State.init wordy) wordyRun = some s ∧
    (wordyRun.countP Action.isLoop : ℚ) ≤ (2 + max 500 0 / 1000) * ((2 : Nat) + 2) := by
  obtain ⟨s, hs, -⟩ := run_wordy
  exact ⟨s, hs, (run_ends hs).1⟩

end CncSsh
end FrbL1
