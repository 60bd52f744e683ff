import FrbL1.Run
import Mathlib.Data.List.Nodup
import Mathlib.Data.Rat.Defs
import Mathlib.Algebra.Order.Ring.Rat
import Mathlib.Tactic.Linarith
import Mathlib.Tactic.Ring
/-!
# CncClient — waiting for the replies of several servers

`send_with_timeout` polls the sockets of the servers that have not replied, and takes the time that has passed off the
timeout each time some have.  The polls are within what is left of the timeout (`polls_within_iff`) as long as some of it
is left when a poll begins: otherwise its timeout is negative, and it does not end before a server replies.  The replies
are returned in the order of the servers.
-/
namespace FrbL1
namespace CncClient

open Trans

/-- A call of `poll.poll(timeout=timeout)`: its timeout, and the milliseconds since the first reading of the clock, up to
the last reading and up to the call. -/
structure Poll where
  timeout : ℚ
  read    : ℚ
  elapsed : ℚ
  deriving DecidableEq

inductive Pc (Reply : Type)
  | ready
  | blocking
  | events (sockets : List Nat)
  | adjust
  | returned (rtn : List (Option Reply))

/-- The sockets are numbered as the servers.  `now`, `start` and `t0` are in seconds: the time, and the first and the
last reading of it.  `arrived` are the replies of the servers; `blocked` is how long the last poll has blocked, and
`spent` how long those before it have. -/
structure State (Reply : Type) where
  now     : ℚ
  start   : ℚ
  t0      : ℚ
  timeout : ℚ
  sockets : List Nat
  results : Nat → Option Reply
  arrived : Nat → Option Reply
  pc      : Pc Reply
  polls   : List Poll
  spent   : ℚ
  blocked : ℚ

/-- What happens: time passes (`elapse` in seconds, `block` in milliseconds, in a poll), a server replies, or the client
goes on. -/
inductive Action (Reply : Type)
  | elapse (dt : ℚ)
  | arrive (i : Nat) (r : Reply)
  | call
  | block (d : ℚ)
  | eventsReturned
  | timedOut
  | recv
  | eventsDone
  | readClock

variable {Reply : Type}

namespace State

def init (nservers : Nat) (timeout now : ℚ) : State Reply where
  now     := now
  start   := now
  t0      := now
  timeout := timeout
  sockets := List.range nservers
  results := fun _ => none
  arrived := fun _ => none
  pc      := .ready
  polls   := []
  spent   := 0
  blocked := 0

/-- Milliseconds from the first reading of the clock to the last. -/
def read (s : State Reply) : ℚ := 1000 * (s.t0 - s.start)

def elapsed (s : State Reply) : ℚ := 1000 * (s.now - s.start)

def replied (s : State Reply) : List Nat := s.sockets.filter (fun i => (s.arrived i).isSome)

def rtn (nservers : Nat) (s : State Reply) : List (Option Reply) := (List.range nservers).map s.results

end State

/-- `send_with_timeout` for this many servers, with a message to this many of them.  pyzmq takes a negative timeout for
none. -/
def step (nservers nmessages : Nat) (s : State Reply) : Action Reply → Option (State Reply)
  | .elapse dt =>
    match s.pc with
    | .blocking | .returned _ => none
    | _ => if 0 ≤ dt then some { s with now := s.now + dt } else none
  | .arrive i r =>
    match s.pc with
    | .returned _ => none
    | _ =>
      if i < min nservers nmessages ∧ (s.arrived i).isNone then
        some { s with arrived := fun j => if j = i then some r else s.arrived j }
      else none
  | .call =>
    match s.pc with
    | .ready => some { s with pc := .blocking, polls := ⟨s.timeout, s.read, s.elapsed⟩ :: s.polls }
    | _      => none
  | .block d =>
    match s.pc with
    | .blocking =>
      if 0 ≤ d ∧ (0 ≤ s.timeout → s.blocked + d ≤ s.timeout) then
        some { s with now := s.now + d / 1000, blocked := s.blocked + d }
      else none
    | _ => none
  | .eventsReturned =>
    match s.pc with
    | .blocking => if s.replied = [] then none else some { s with pc := .events s.replied }
    | _         => none
  | .timedOut =>
    match s.pc with
    | .blocking => if s.replied = [] ∧ 0 ≤ s.timeout then some { s with pc := .returned (s.rtn nservers) } else none
    | _         => none
  | .recv =>
    match s.pc with
    | .events (i :: rest) => some { s with
        results := fun j => if j = i then s.arrived i else s.results j
        sockets := s.sockets.erase i
        pc      := .events rest }
    | _ => none
  | .eventsDone =>
    match s.pc with
    | .events [] => some { s with pc := if s.sockets = [] then .returned (s.rtn nservers) else .adjust }
    | _          => none
  | .readClock =>
    match s.pc with
    | .adjust => some { s with
        timeout := s.timeout - 1000 * (s.now - s.t0)
        t0      := s.now
        pc      := .ready
        spent   := s.spent + s.blocked
        blocked := 0 }
    | _ => none

/-! ## What is asked of the polls -/

/-- **Each poll is within the timeout**, less the time that has passed. -/
def Poll.Within (timeout : ℚ) (elapsed : Poll → ℚ) (p : Poll) : Prop :=
  0 ≤ p.timeout ∧ p.timeout ≤ timeout - elapsed p

/-- The timeout had not passed when the clock was read last. -/
def InTime (timeout : ℚ) (s : State Reply) : Action Reply → Prop
  | .call => s.read ≤ timeout
  | _     => True

def Prompt (timeout : ℚ) (s : State Reply) : Action Reply → Prop
  | .call => s.read ≤ timeout ∧ s.now = s.t0
  | _     => True

instance inTime_decidable (timeout : ℚ) (s : State Reply) : ∀ a : Action Reply, Decidable (InTime timeout s a)
  | .call => inferInstanceAs (Decidable (s.read ≤ timeout))
  | .elapse _ | .arrive _ _ | .block _ | .eventsReturned | .timedOut | .recv | .eventsDone | .readClock => .isTrue trivial

instance prompt_decidable (timeout : ℚ) (s : State Reply) : ∀ a : Action Reply, Decidable (Prompt timeout s a)
  | .call => inferInstanceAs (Decidable (s.read ≤ timeout ∧ s.now = s.t0))
  | .elapse _ | .arrive _ _ | .block _ | .eventsReturned | .timedOut | .recv | .eventsDone | .readClock => .isTrue trivial

/-! ## What each action does -/

section
variable {nservers nmessages : Nat} {timeout : ℚ} {s s' : State Reply}

theorem step_elapse {dt : ℚ} (h : step nservers nmessages s (.elapse dt) = some s') :
    0 ≤ dt ∧ s.pc ≠ .blocking ∧ s' = { s with now := s.now + dt } := by
  simp only [step] at h
  split at h
  · cases h
  · cases h
  · rename_i hpc _
    split at h
    · exact ⟨‹_›, hpc, (Option.some.inj h).symm⟩
    · cases h

theorem step_arrive {i : Nat} {r : Reply} (h : step nservers nmessages s (.arrive i r) = some s') :
    (∀ rtn, s.pc ≠ .returned rtn) ∧ i < nservers ∧ s.arrived i = none ∧
      s' = { s with arrived := fun j => if j = i then some r else s.arrived j } := by
  simp only [step] at h
  split at h
  · cases h
  · rename_i hpc
    split at h
    · rename_i hi
      exact ⟨hpc, (lt_min_iff.1 hi.1).1, Option.isNone_iff_eq_none.1 hi.2, (Option.some.inj h).symm⟩
    · cases h

theorem step_call (h : step nservers nmessages s .call = some s') :
    s.pc = .ready ∧ s' = { s with pc := .blocking, polls := ⟨s.timeout, s.read, s.elapsed⟩ :: s.polls } := by
  simp only [step] at h
  split at h
  · exact ⟨‹_›, (Option.some.inj h).symm⟩
  · cases h

theorem step_block {d : ℚ} (h : step nservers nmessages s (.block d) = some s') :
    s.pc = .blocking ∧ 0 ≤ d ∧ (0 ≤ s.timeout → s.blocked + d ≤ s.timeout) ∧
      s' = { s with now := s.now + d / 1000, blocked := s.blocked + d } := by
  simp only [step] at h
  split at h
  · rename_i hpc
    split at h
    · rename_i hd
      exact ⟨hpc, hd.1, hd.2, (Option.some.inj h).symm⟩
    · cases h
  · cases h

theorem step_eventsReturned (h : step nservers nmessages s .eventsReturned = some s') :
    s.pc = .blocking ∧ s' = { s with pc := .events s.replied } := by
  simp only [step] at h
  split at h
  · rename_i hpc
    split at h
    · cases h
    · exact ⟨hpc, (Option.some.inj h).symm⟩
  · cases h

theorem step_timedOut (h : step nservers nmessages s .timedOut = some s') :
    s.pc = .blocking ∧ s.replied = [] ∧ s' = { s with pc := .returned (s.rtn nservers) } := by
  simp only [step] at h
  split at h
  · rename_i hpc
    split at h
    · rename_i hreplied
      exact ⟨hpc, hreplied.1, (Option.some.inj h).symm⟩
    · cases h
  · cases h

theorem step_recv (h : step nservers nmessages s .recv = some s') : ∃ i rest, s.pc = .events (i :: rest) ∧ s' = { s with
    results := fun j => if j = i then s.arrived i else s.results j
    sockets := s.sockets.erase i
    pc      := .events rest } := by
  simp only [step] at h
  split at h
  · exact ⟨_, _, ‹_›, (Option.some.inj h).symm⟩
  · cases h

theorem step_eventsDone (h : step nservers nmessages s .eventsDone = some s') :
    s.pc = .events [] ∧ s' = { s with pc := if s.sockets = [] then .returned (s.rtn nservers) else .adjust } := by
  simp only [step] at h
  split at h
  · exact ⟨‹_›, (Option.some.inj h).symm⟩
  · cases h

theorem step_readClock (h : step nservers nmessages s .readClock = some s') : s.pc = .adjust ∧ s' = { s with
    timeout := s.timeout - 1000 * (s.now - s.t0)
    t0      := s.now
    pc      := .ready
    spent   := s.spent + s.blocked
    blocked := 0 } := by
  simp only [step] at h
  split at h
  · exact ⟨‹_›, (Option.some.inj h).symm⟩
  · cases h

/-! ## The clock -/

/-- **The timeout is what is left at the last reading of the clock.** -/
structure Clock (timeout : ℚ) (s : State Reply) : Prop where
  left    : s.timeout = timeout - s.read
  t0      : s.t0 ≤ s.now
  spent   : s.spent ≤ s.read
  total   : s.spent + s.blocked ≤ s.elapsed
  blocked : 0 ≤ s.timeout → s.blocked ≤ s.timeout

theorem clock_init (now : ℚ) : Clock timeout (State.init nservers timeout now : State Reply) where
  left    := by simp only [State.init, State.read, sub_self, mul_zero, sub_zero]
  t0      := le_rfl
  spent   := by simp only [State.init, State.read, sub_self, mul_zero, le_rfl]
  total   := by simp only [State.init, State.elapsed, sub_self, mul_zero, add_zero, le_rfl]
  blocked := fun h => h

theorem clock_step {a : Action Reply} (hs : Clock timeout s) (h : step nservers nmessages s a = some s') :
    Clock timeout s' := by
  obtain ⟨hleft, ht0, hspent, htotal, hblocked⟩ := hs
  cases a with
  | elapse dt =>
    obtain ⟨hdt, -, rfl⟩ := step_elapse h
    refine ⟨hleft, by linarith, hspent, ?_, hblocked⟩
    unfold State.elapsed at htotal ⊢
    linarith
  | arrive i r =>
    obtain ⟨-, -, -, rfl⟩ := step_arrive h
    exact ⟨hleft, ht0, hspent, htotal, hblocked⟩
  | call =>
    obtain ⟨-, rfl⟩ := step_call h
    exact ⟨hleft, ht0, hspent, htotal, hblocked⟩
  | block d =>
    obtain ⟨-, h0, hd, rfl⟩ := step_block h
    refine ⟨hleft, by linarith, hspent, ?_, hd⟩
    unfold State.elapsed at htotal ⊢
    linarith
  | eventsReturned =>
    obtain ⟨-, rfl⟩ := step_eventsReturned h
    exact ⟨hleft, ht0, hspent, htotal, hblocked⟩
  | timedOut =>
    obtain ⟨-, -, rfl⟩ := step_timedOut h
    exact ⟨hleft, ht0, hspent, htotal, hblocked⟩
  | recv =>
    obtain ⟨i, rest, -, rfl⟩ := step_recv h
    exact ⟨hleft, ht0, hspent, htotal, hblocked⟩
  | eventsDone =>
    obtain ⟨-, rfl⟩ := step_eventsDone h
    exact ⟨hleft, ht0, hspent, htotal, hblocked⟩
  | readClock =>
    obtain ⟨-, rfl⟩ := step_readClock h
    refine ⟨?_, le_rfl, htotal, ?_, fun h => h⟩
    · unfold State.read at hleft ⊢
      linarith
    · exact (add_zero _).trans_le htotal

/-! ## The replies -/

/-- The sockets that are not registered any more have given their results. -/
structure Results (nservers : Nat) (s : State Reply) : Prop where
  nodup      : s.sockets.Nodup
  registered : ∀ i ∈ s.sockets, s.results i = none
  received   : ∀ i < nservers, i ∉ s.sockets → s.results i = s.arrived i ∧ s.arrived i ≠ none
  events     : ∀ l, s.pc = .events l → l.Nodup ∧ ∀ i ∈ l, i ∈ s.sockets ∧ s.arrived i ≠ none
  returned   : ∀ l, s.pc = .returned l → l = (List.range nservers).map s.arrived

theorem results_init (now : ℚ) : Results nservers (State.init nservers timeout now : State Reply) where
  nodup      := List.nodup_range
  registered := fun _ _ => rfl
  received   := fun _ hi hmem => absurd (List.mem_range.2 hi) hmem
  events     := fun _ h => nomatch h
  returned   := fun _ h => nomatch h

theorem rtn_eq (hs : Results nservers s) (h : ∀ i ∈ s.sockets, s.arrived i = none) :
    s.rtn nservers = (List.range nservers).map s.arrived := by
  refine List.map_congr_left (fun i hi => ?_)
  by_cases hmem : i ∈ s.sockets
  · rw [hs.registered i hmem, h i hmem]
  · exact (hs.received i (List.mem_range.1 hi) hmem).1

theorem results_arrive {i : Nat} {r : Reply} (hs : Results nservers s) (hpc : ∀ rtn, s.pc ≠ .returned rtn)
    (hnone : s.arrived i = none) : Results nservers { s with arrived := fun j => if j = i then some r else s.arrived j } := by
  have hother : ∀ j, s.arrived j ≠ none → j ≠ i := fun j hj heq => hj (heq ▸ hnone)
  refine ⟨hs.nodup, hs.registered, fun j hj hmem => ?_, fun l hl => ?_, fun l hl => absurd hl (hpc l)⟩
  · obtain ⟨heq, hne⟩ := hs.received j hj hmem
    simp only [if_neg (hother j hne)]
    exact ⟨heq, hne⟩
  · refine ⟨(hs.events l hl).1, fun j hj => ?_⟩
    obtain ⟨hmem, hne⟩ := (hs.events l hl).2 j hj
    simp only [if_neg (hother j hne)]
    exact ⟨hmem, hne⟩

theorem results_recv {i : Nat} {rest : List Nat} (hs : Results nservers s) (hpc : s.pc = .events (i :: rest)) :
    Results nservers { s with
      results := fun j => if j = i then s.arrived i else s.results j
      sockets := s.sockets.erase i
      pc      := .events rest } := by
  obtain ⟨hnodup, hevents⟩ := hs.events _ hpc
  obtain ⟨hi, hrest⟩ := List.nodup_cons.1 hnodup
  refine ⟨hs.nodup.erase i, fun j hj => ?_, fun j hj hmem => ?_, fun l hl => ?_, fun _ hl => (nomatch hl)⟩
  · have hne : j ≠ i := (hs.nodup.mem_erase_iff.1 hj).1
    simp only [if_neg hne]
    exact hs.registered j (List.mem_of_mem_erase hj)
  · by_cases heq : j = i
    · subst heq
      exact ⟨if_pos rfl, (hevents j (.head _)).2⟩
    · simp only [if_neg heq]
      exact hs.received j hj (fun h => hmem (hs.nodup.mem_erase_iff.2 ⟨heq, h⟩))
  · obtain rfl := Pc.events.inj hl
    refine ⟨hrest, fun j hj => ?_⟩
    obtain ⟨hmem, hne⟩ := hevents j (.tail _ hj)
    exact ⟨hs.nodup.mem_erase_iff.2 ⟨fun heq => hi (heq ▸ hj), hmem⟩, hne⟩

theorem results_returned (hs : Results nservers s) (h : ∀ i ∈ s.sockets, s.arrived i = none) :
    Results nservers { s with pc := .returned (s.rtn nservers) } := by
  refine ⟨hs.nodup, hs.registered, hs.received, fun _ hl => (nomatch hl), fun l hl => ?_⟩
  obtain rfl := Pc.returned.inj hl
  exact rtn_eq hs h

theorem results_step {a : Action Reply} (hs : Results nservers s) (h : step nservers nmessages s a = some s') :
    Results nservers s' := by
  cases a with
  | elapse dt =>
    obtain ⟨-, -, rfl⟩ := step_elapse h
    exact ⟨hs.nodup, hs.registered, hs.received, hs.events, hs.returned⟩
  | arrive i r =>
    obtain ⟨hpc, -, hnone, rfl⟩ := step_arrive h
    exact results_arrive hs hpc hnone
  | call =>
    obtain ⟨-, rfl⟩ := step_call h
    exact ⟨hs.nodup, hs.registered, hs.received, fun _ hl => (nomatch hl), fun _ hl => (nomatch hl)⟩
  | block d =>
    obtain ⟨-, -, -, rfl⟩ := step_block h
    exact ⟨hs.nodup, hs.registered, hs.received, hs.events, hs.returned⟩
  | eventsReturned =>
    obtain ⟨-, rfl⟩ := step_eventsReturned h
    refine ⟨hs.nodup, hs.registered, hs.received, fun l hl => ?_, fun _ hl => (nomatch hl)⟩
    obtain rfl := Pc.events.inj hl
    refine ⟨hs.nodup.filter _, fun i hi => ?_⟩
    obtain ⟨hmem, hsome⟩ := List.mem_filter.1 hi
    exact ⟨hmem, Option.isSome_iff_ne_none.1 hsome⟩
  | timedOut =>
    obtain ⟨-, hreplied, rfl⟩ := step_timedOut h
    exact results_returned hs (fun i hi => Option.not_isSome_iff_eq_none.1 (List.filter_eq_nil_iff.1 hreplied i hi))
  | recv =>
    obtain ⟨i, rest, hpc, rfl⟩ := step_recv h
    exact results_recv hs hpc
  | eventsDone =>
    obtain ⟨-, rfl⟩ := step_eventsDone h
    split
    · rename_i hnil
      refine results_returned hs (fun i hi => ?_)
      rw [hnil] at hi
      cases hi
    · exact ⟨hs.nodup, hs.registered, hs.received, fun _ hl => (nomatch hl), fun _ hl => (nomatch hl)⟩
  | readClock =>
    obtain ⟨-, rfl⟩ := step_readClock h
    exact ⟨hs.nodup, hs.registered, hs.received, fun _ hl => (nomatch hl), fun _ hl => (nomatch hl)⟩

/-! ## Runs -/

theorem step_polls {a : Action Reply} (h : step nservers nmessages s a = some s') :
    (a = .call ∧ s'.polls = ⟨s.timeout, s.read, s.elapsed⟩ :: s.polls) ∨ (a ≠ .call ∧ s'.polls = s.polls) := by
  cases a with
  | elapse dt =>
    obtain ⟨-, -, rfl⟩ := step_elapse h
    exact .inr ⟨fun h => (nomatch h), rfl⟩
  | arrive i r =>
    obtain ⟨-, -, -, rfl⟩ := step_arrive h
    exact .inr ⟨fun h => (nomatch h), rfl⟩
  | call =>
    obtain ⟨-, rfl⟩ := step_call h
    exact .inl ⟨rfl, rfl⟩
  | block d =>
    obtain ⟨-, -, -, rfl⟩ := step_block h
    exact .inr ⟨fun h => (nomatch h), rfl⟩
  | eventsReturned =>
    obtain ⟨-, rfl⟩ := step_eventsReturned h
    exact .inr ⟨fun h => (nomatch h), rfl⟩
  | timedOut =>
    obtain ⟨-, -, rfl⟩ := step_timedOut h
    exact .inr ⟨fun h => (nomatch h), rfl⟩
  | recv =>
    obtain ⟨i, rest, -, rfl⟩ := step_recv h
    exact .inr ⟨fun h => (nomatch h), rfl⟩
  | eventsDone =>
    obtain ⟨-, rfl⟩ := step_eventsDone h
    exact .inr ⟨fun h => (nomatch h), rfl⟩
  | readClock =>
    obtain ⟨-, rfl⟩ := step_readClock h
    exact .inr ⟨fun h => (nomatch h), rfl⟩

def Polled (Q : Poll → Prop) (s : State Reply) : Prop := ∀ p ∈ s.polls, Q p

theorem polled_step {Q : Poll → Prop} {a : Action Reply} (h : step nservers nmessages s a = some s') :
    Polled Q s' ↔ (a = .call → Q ⟨s.timeout, s.read, s.elapsed⟩) ∧ Polled Q s := by
  unfold Polled
  obtain ⟨rfl, hpolls⟩ | ⟨hne, hpolls⟩ := step_polls h
  · rw [hpolls, List.forall_mem_cons, imp_iff_right rfl]
  · rw [hpolls]
    exact (and_iff_right (fun heq => absurd heq hne)).symm

/-- **All polls have a property if and only if each call meets a condition** that says it of the call's own. -/
theorem polled_iff_guard {P : State Reply → Action Reply → Prop} [∀ s a, Decidable (P s a)] {Q : Poll → Prop}
    (hP : ∀ s a, Clock timeout s → (P s a ↔ (a = .call → Q ⟨s.timeout, s.read, s.elapsed⟩)))
    {as : List (Action Reply)} {now : ℚ} (h : run (step nservers nmessages) (.init nservers timeout now) as = some s) :
    Polled Q s ↔ run (guard (step nservers nmessages) P) (.init nservers timeout now) as = some s := by
  have hinit : Clock timeout (.init nservers timeout now : State Reply) ∧ Polled Q (.init nservers timeout now : State Reply) :=
    ⟨clock_init now, fun _ hp => nomatch hp⟩
  have hmeets : ∀ (s : State Reply) (a : Action Reply) (s' : State Reply), Clock timeout s ∧ Polled Q s → P s a →
      step nservers nmessages s a = some s' → Clock timeout s' ∧ Polled Q s' :=
    fun s a s' hs hPa hstep => ⟨clock_step hs.1 hstep, (polled_step hstep).2 ⟨(hP s a hs.1).1 hPa, hs.2⟩⟩
  have hmisses : ∀ (s : State Reply) (a : Action Reply) (s' : State Reply), Clock timeout s ∧ Polled Q s → ¬ P s a →
      step nservers nmessages s a = some s' → ¬ Polled Q s' :=
    fun s a s' hs hPa hstep hall => hPa ((hP s a hs.1).2 ((polled_step hstep).1 hall).1)
  have hstays : ∀ (s : State Reply) (a : Action Reply) (s' : State Reply), ¬ Polled Q s →
      step nservers nmessages s a = some s' → ¬ Polled Q s' :=
    fun s a s' hs hstep hall => hs ((polled_step hstep).1 hall).2
  constructor
  · intro hall
    exact run_guard_of_run _ P hmeets hmisses hstays as _ s hinit h (not_not.2 hall)
  · intro hrun
    exact (run_invariant _ _ (fun s a s' hs hstep => hmeets s a s' hs (guard_eq_some.1 hstep).1 (guard_eq_some.1 hstep).2)
      as _ s hinit hrun).2

theorem inTime_iff (s : State Reply) (a : Action Reply) (hs : Clock timeout s) : InTime timeout s a ↔
    (a = .call → Poll.Within timeout (·.read) ⟨s.timeout, s.read, s.elapsed⟩) := by
  cases a with
  | call =>
    simp only [InTime, Poll.Within, true_imp_iff, hs.left, le_refl, and_true, sub_nonneg]
  | _ => exact iff_of_true trivial (fun h => nomatch h)

theorem prompt_iff (s : State Reply) (a : Action Reply) (hs : Clock timeout s) : Prompt timeout s a ↔
    (a = .call → Poll.Within timeout (·.elapsed) ⟨s.timeout, s.read, s.elapsed⟩) := by
  cases a with
  | call =>
    have ht0 := hs.t0
    simp only [Prompt, Poll.Within, true_imp_iff, hs.left, sub_nonneg, sub_le_sub_iff_left]
    refine and_congr_right (fun _ => ?_)
    unfold State.elapsed State.read
    constructor
    · intro h
      rw [h]
    · intro h
      linarith
  | _ => exact iff_of_true trivial (fun h => nomatch h)

structure Bounded (timeout : ℚ) (s : State Reply) : Prop where
  clock    : Clock timeout s
  blocking : s.pc = .blocking → s.read ≤ timeout
  bounded  : s.spent + s.blocked ≤ timeout

theorem bounded_step {a : Action Reply} (hs : Bounded timeout s) (hP : InTime timeout s a)
    (h : step nservers nmessages s a = some s') : Bounded timeout s' := by
  have hclock := clock_step hs.clock h
  obtain ⟨⟨hleft, -, hspent, -, -⟩, hblocking, hbounded⟩ := hs
  cases a with
  | elapse dt =>
    obtain ⟨-, -, rfl⟩ := step_elapse h
    exact ⟨hclock, hblocking, hbounded⟩
  | arrive i r =>
    obtain ⟨-, -, -, rfl⟩ := step_arrive h
    exact ⟨hclock, hblocking, hbounded⟩
  | call =>
    obtain ⟨-, rfl⟩ := step_call h
    exact ⟨hclock, fun _ => hP, hbounded⟩
  | block d =>
    obtain ⟨hpc, -, hd, rfl⟩ := step_block h
    have hread := hblocking hpc
    have hle : s.blocked + d ≤ s.timeout := hd (by linarith)
    refine ⟨hclock, hblocking, ?_⟩
    show s.spent + (s.blocked + d) ≤ timeout
    linarith
  | eventsReturned =>
    obtain ⟨-, rfl⟩ := step_eventsReturned h
    exact ⟨hclock, fun hpc => (nomatch hpc), hbounded⟩
  | timedOut =>
    obtain ⟨-, -, rfl⟩ := step_timedOut h
    exact ⟨hclock, fun hpc => (nomatch hpc), hbounded⟩
  | recv =>
    obtain ⟨i, rest, -, rfl⟩ := step_recv h
    exact ⟨hclock, fun hpc => (nomatch hpc), hbounded⟩
  | eventsDone =>
    obtain ⟨-, rfl⟩ := step_eventsDone h
    refine ⟨hclock, fun hpc => ?_, hbounded⟩
    simp only at hpc
    split at hpc <;> cases hpc
  | readClock =>
    obtain ⟨-, rfl⟩ := step_readClock h
    exact ⟨hclock, fun hpc => (nomatch hpc), (add_zero _).trans_le hbounded⟩

end

/-- **The polls are within the timeout** if and only if each begins when it has not passed, by the last reading of the
clock (and, with the time up to the call, at that reading).  Then all together block for no longer than the timeout.  The
replies are returned in any case. -/
theorem polls_within_iff (nservers nmessages : Nat) {timeout : ℚ} (htimeout : 0 ≤ timeout) (now : ℚ)
    (as : List (Action Reply)) (s : State Reply)
    (h : run (step nservers nmessages) (.init nservers timeout now) as = some s) :
    ((∀ p ∈ s.polls, p.Within timeout (·.read)) ↔
        run (guard (step nservers nmessages) (InTime timeout)) (.init nservers timeout now) as = some s) ∧
      ((∀ p ∈ s.polls, p.Within timeout (·.elapsed)) ↔
        run (guard (step nservers nmessages) (Prompt timeout)) (.init nservers timeout now) as = some s) ∧
      (run (guard (step nservers nmessages) (InTime timeout)) (.init nservers timeout now) as = some s →
        s.spent + s.blocked ≤ timeout) ∧
      ∀ rtn, s.pc = .returned rtn → rtn = (List.range nservers).map s.arrived := by
  refine ⟨polled_iff_guard inTime_iff h, polled_iff_guard prompt_iff h, fun hrun => ?_, ?_⟩
  · have hinit : Bounded timeout (.init nservers timeout now : State Reply) :=
      ⟨clock_init now, fun hpc => (nomatch hpc), (add_zero (0 : ℚ)).trans_le htimeout⟩
    exact (run_invariant _ _ (fun s a s' hs hstep =>
      bounded_step hs (guard_eq_some.1 hstep).1 (guard_eq_some.1 hstep).2) as _ s hinit hrun).bounded
  · have hresults : Results nservers s :=
      run_invariant _ _ (fun s a s' hs hstep => results_step hs hstep) as _ s (results_init now) h
    exact hresults.returned

/-- Of two servers, one replies after 900 ms, and it takes `dt` seconds until the reply has been read. -/
def oneReplies (dt : ℚ) : List (Action Unit) :=
  [.call, .block 900, .arrive 0 (), .eventsReturned, .elapse dt, .recv, .eventsDone, .readClock, .call]

/-- The other one has 50 ms left. -/
theorem polls_within_oneReplies : ∃ s, run (step 2 2) (.init 2 1000 0) (oneReplies (1 / 20)) = some s ∧
    s.polls.map (·.timeout) = [50, 1000] ∧ ∀ p ∈ s.polls, p.Within 1000 (·.read) := by
  have hpolls : (run (guard (step 2 2) (InTime 1000)) (.init 2 1000 0) (oneReplies (1 / 20))).map
      (fun s => s.polls.map (·.timeout)) = some [50, 1000] := by decide +kernel
  obtain ⟨s, hs, hpolls⟩ := Option.map_eq_some_iff.1 hpolls
  have hrun := run_of_run_guard _ _ _ _ _ hs
  exact ⟨s, hrun, hpolls, (polls_within_iff 2 2 (by norm_num) 0 _ s hrun).1.2 hs⟩

/-- **A reply that is read too late**: the other server is polled with a timeout of -100 ms. -/
theorem not_polls_within_oneReplies : ¬ ∀ (nservers nmessages : Nat) (timeout : ℚ), 0 ≤ timeout → ∀ (now : ℚ)
    (as : List (Action Unit)) (s : State Unit), run (step nservers nmessages) (.init nservers timeout now) as = some s →
      ∀ p ∈ s.polls, p.Within timeout (·.read) := by
  intro hall
  have hpolls : (run (step 2 2) (.init 2 1000 0) (oneReplies (1 / 5))).map (·.polls) =
      some [⟨-100, 1100, 1100⟩, ⟨1000, 0, 0⟩] := by decide +kernel
  obtain ⟨s, hs, hpolls⟩ := Option.map_eq_some_iff.1 hpolls
  have hlate := (hall 2 2 1000 (by norm_num) 0 _ s hs ⟨-100, 1100, 1100⟩ (by rw [hpolls]; exact .head _)).1
  norm_num at hlate

end CncClient
end FrbL1
