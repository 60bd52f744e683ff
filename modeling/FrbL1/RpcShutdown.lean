import FrbL1.RpcServer
/-!
# RpcShutdown — which completed writes are reported before `run()` returns

The loop tests the flag, drains the queue and then waits in `recv`.  What the queue holds when the flag is set is
reported exactly if the server thread is inside the drain at that moment (`shutdown_reports`): anywhere else its next
test of the flag ends the loop.  `l1_server::join_all_threads` sets the flag once every output device has finished
(`Joined`), and the `shutdown` RPC sets it inside a handler; both can find entries in the queue
(`shutdown_loses_reports`).
-/
namespace FrbL1
namespace Rpc

open Trans

/-- No reply that somebody awaits was queued before `_shutdown` was set and is still there. -/
def State.NothingLost (s : State) : Prop := ∀ e ∈ s.queue, e.client ≠ none → e.beforeShutdown = false

def State.WillDrain (s : State) : Prop := s.pc = .draining ∨ ∀ e ∈ s.queue, e.client = none

instance (s : State) : Decidable s.NothingLost := inferInstanceAs (Decidable (∀ e ∈ s.queue, _ → _))
instance (s : State) : Decidable s.WillDrain := inferInstanceAs (Decidable (_ ∨ _))

/-- The flag is set only where the queue will be drained. -/
def DrainsAtShutdown (s : State) : Action → Prop
  | .recvShutdown => s.shutdown = true ∨ s.WillDrain
  | .doShutdown   => s.shutdown = true ∨ s.WillDrain
  | _             => True

instance (s : State) : (a : Action) → Decidable (DrainsAtShutdown s a)
  | .recvShutdown => inferInstanceAs (Decidable (_ ∨ _))
  | .doShutdown   => inferInstanceAs (Decidable (_ ∨ _))
  | .isShutdown | .checkBackendQueue _ | .recvTimeout | .recvIgnored | .recvStatus _ _ _ _ | .recvOther _ _ _ _
  | .recvWriteChunks _ _ _ _ | .enqueueWriteRequest | .enqueueReturns _ | .sendList _ | .statusChanged _ _ _
  | .finished _ _ _ _ | .enqueueWriteReply _ | .testEnqueue _ _ _ => isTrue trivial

/-- `join_all_threads` calls `do_shutdown` after `end_stream(true)` and `join_thread()` of every output device. -/
def Joined (s : State) : Action → Prop
  | .doShutdown => s.inflight = []
  | _           => True

instance (s : State) : (a : Action) → Decidable (Joined s a)
  | .doShutdown => inferInstanceAs (Decidable (s.inflight = []))
  | .recvShutdown | .isShutdown | .checkBackendQueue _ | .recvTimeout | .recvIgnored | .recvStatus _ _ _ _
  | .recvOther _ _ _ _ | .recvWriteChunks _ _ _ _ | .enqueueWriteRequest | .enqueueReturns _ | .sendList _
  | .statusChanged _ _ _ | .finished _ _ _ _ | .enqueueWriteReply _ | .testEnqueue _ _ _ => isTrue trivial

section
variable {formatFilename : AssembledChunk → String → String}

@[simp] theorem queue_send (s : State) (c : ClientId) (t : UInt32) (x : Content) (ok : Bool) :
    (s.send c t x ok).queue = s.queue := by unfold State.send; split <;> rfl
@[simp] theorem shutdown_send (s : State) (c : ClientId) (t : UInt32) (x : Content) (ok : Bool) :
    (s.send c t x ok).shutdown = s.shutdown := by unfold State.send; split <;> rfl
@[simp] theorem pc_send (s : State) (c : ClientId) (t : UInt32) (x : Content) (ok : Bool) :
    (s.send c t x ok).pc = s.pc := by unfold State.send; split <;> rfl

/-- The flag and the queue stay, and the server thread moves on as its loop allows. -/
structure State.Moves (s s' : State) : Prop where
  shutdown : s'.shutdown = s.shutdown
  queue    : s'.queue = s.queue
  enters   : s'.pc = .draining → s.pc = .draining ∨ s.shutdown = false
  leaves   : s.pc = .draining → s'.pc = .draining ∨ s.queue = []
  exits    : s'.pc = .exited → s.pc = .exited ∨ s.shutdown = true

theorem moves_of_pc_eq {s s' : State} (hs : s'.shutdown = s.shutdown) (hq : s'.queue = s.queue) (hpc : s'.pc = s.pc) :
    s.Moves s' :=
  ⟨hs, hq, fun hd => .inl (hpc ▸ hd), fun hd => .inl (hpc.trans hd), fun hx => .inl (hpc ▸ hx)⟩

theorem moves_of_handler {s s' : State} (hs : s'.shutdown = s.shutdown) (hq : s'.queue = s.queue)
    (hd : s.pc ≠ .draining) (hd' : s'.pc ≠ .draining) (hx : s'.pc ≠ .exited) : s.Moves s' :=
  ⟨hs, hq, fun h => absurd h hd', fun h => absurd h hd, fun h => absurd h hx⟩

theorem step_queue {s s' : State} {a : Action} (h : step formatFilename s a = some s') :
    ((a = .recvShutdown ∨ a = .doShutdown) ∧ s'.shutdown = true ∧ s'.queue = s.queue ∧
      (s'.pc = s.pc ∨ s.pc = .receiving ∧ s'.pc = .top)) ∨
    (s'.shutdown = s.shutdown ∧ s'.pc = s.pc ∧ ∃ e, s'.queue = s.queue ++ [e] ∧ e.beforeShutdown = !s.shutdown) ∨
    (s'.shutdown = s.shutdown ∧ s.pc = .draining ∧ s'.pc = .draining ∧ ∃ e, s.queue = e :: s'.queue) ∨
    s.Moves s' := by
  cases a with
  | recvShutdown =>
    simp only [step] at h
    split at h <;> cases h
    rename_i hpc
    exact .inl ⟨.inl rfl, rfl, rfl, .inr ⟨hpc, rfl⟩⟩
  | doShutdown =>
    simp only [step] at h
    cases h
    exact .inl ⟨.inr rfl, rfl, rfl, .inl rfl⟩
  | enqueueWriteReply i =>
    simp only [step] at h
    split at h <;> cases h
    exact .inr (.inl ⟨rfl, rfl, _, rfl, rfl⟩)
  | isShutdown =>
    simp only [step] at h
    split at h <;> cases h
    rename_i hpc
    refine .inr (.inr (.inr ⟨rfl, rfl, fun hd => .inr ?_, fun hd => ?_, fun hx => .inr ?_⟩))
    · cases hs : s.shutdown with
      | false => rfl
      | true => simp [hs] at hd
    · rw [hpc] at hd; cases hd
    · cases hs : s.shutdown with
      | false => simp [hs] at hx
      | true => rfl
  | checkBackendQueue ok =>
    simp only [step] at h
    split at h <;> cases h
    · rename_i hpc hq
      exact .inr (.inr (.inr ⟨rfl, rfl, fun _ => .inl hpc, fun _ => .inr hq, fun hx => nomatch hx⟩))
    · rename_i e q hpc hq
      refine .inr (.inr (.inl ⟨?_, hpc, ?_, e, ?_⟩)) <;> unfold State.forward <;> split <;> simp [hpc, hq]
  | recvTimeout =>
    simp only [step] at h
    split at h <;> cases h
    rename_i hpc
    exact .inr (.inr (.inr (moves_of_handler rfl rfl (by simp [hpc]) (by simp) (by simp))))
  | recvIgnored =>
    simp only [step] at h
    split at h <;> cases h
    rename_i hpc
    exact .inr (.inr (.inr (moves_of_handler rfl rfl (by simp [hpc]) (by simp) (by simp))))
  | recvStatus c t pathname ok =>
    simp only [step] at h
    split at h <;> cases h
    rename_i hpc
    exact .inr (.inr (.inr (moves_of_handler (by simp [State.logged]) (by simp [State.logged])
      (by simp [hpc]) (by simp [State.logged]) (by simp [State.logged]))))
  | recvOther c t packed ok =>
    simp only [step] at h
    split at h <;> cases h
    rename_i hpc
    exact .inr (.inr (.inr (moves_of_handler (by simp [State.logged]) (by simp [State.logged])
      (by simp [hpc]) (by simp [State.logged]) (by simp [State.logged]))))
  | recvWriteChunks c t req chunks =>
    simp only [step] at h
    split at h <;> cases h
    rename_i hpc
    exact .inr (.inr (.inr (moves_of_handler rfl rfl (by simp [hpc]) (by simp [State.logged]) (by simp [State.logged]))))
  | enqueueWriteRequest =>
    simp only [step] at h
    split at h <;> cases h
    rename_i hpc
    exact .inr (.inr (.inr (moves_of_handler rfl rfl (by simp [hpc]) (by simp) (by simp))))
  | enqueueReturns success =>
    simp only [step] at h
    split at h <;> cases h
    rename_i hpc
    exact .inr (.inr (.inr (moves_of_handler rfl rfl (by simp [hpc]) (by simp) (by simp))))
  | sendList ok =>
    simp only [step] at h
    split at h <;> cases h
    rename_i hpc
    exact .inr (.inr (.inr (moves_of_handler (by simp) (by simp) (by simp [hpc]) (by simp) (by simp))))
  | statusChanged i state err =>
    simp only [step] at h
    split at h <;> cases h
    exact .inr (.inr (.inr (moves_of_pc_eq rfl rfl rfl)))
  | finished i success state err =>
    simp only [step] at h
    split at h <;> cases h
    exact .inr (.inr (.inr (moves_of_pc_eq rfl rfl rfl)))
  | testEnqueue chunk filename priority =>
    simp only [step] at h
    cases h
    exact .inr (.inr (.inr (moves_of_pc_eq rfl rfl rfl)))

/-! ## The flag is set -/

def State.AllEarly (s : State) : Prop := s.shutdown = false → ∀ e ∈ s.queue, e.beforeShutdown = true

/-- The flag is set, and what was queued before that is reported or will be drained. -/
def State.Drains (s : State) : Prop := s.shutdown = true ∧ (s.pc = .draining ∨ s.NothingLost)

def State.Loses (s : State) : Prop :=
  s.shutdown = true ∧ s.pc ≠ .draining ∧ ∃ e ∈ s.queue, e.client ≠ none ∧ e.beforeShutdown = true

theorem allEarly_step (s : State) (a : Action) (s' : State) (hE : s.AllEarly) (h : step formatFilename s a = some s') :
    s'.AllEarly := by
  intro hs' e he
  rcases step_queue h with ⟨-, hs, -⟩ | ⟨hs, -, x, hq, hx⟩ | ⟨hs, -, -, x, hq⟩ | ⟨hs, hq, -⟩
  · rw [hs] at hs'; cases hs'
  · rw [hs'] at hs
    rw [hq, List.mem_append, List.mem_singleton] at he
    rcases he with he | rfl
    · exact hE hs.symm e he
    · rw [hx, ← hs]; rfl
  · rw [hs'] at hs
    exact hE hs.symm e (by rw [hq]; exact List.mem_cons_of_mem x he)
  · rw [hs'] at hs
    exact hE hs.symm e (by rw [← hq]; exact he)

theorem drains_step (s : State) (a : Action) (s' : State) (hD : s.Drains) (h : step formatFilename s a = some s') :
    s'.Drains := by
  obtain ⟨hs, hD⟩ := hD
  rcases step_queue h with ⟨-, hs', hq, hpc⟩ | ⟨hs', hpc, x, hq, hx⟩ | ⟨hs', -, hpc, -⟩ | ⟨hs', hq, -, hpc, -⟩
  · refine ⟨hs', ?_⟩
    rcases hD with hd | hN
    · rcases hpc with hpc | ⟨hr, -⟩
      · exact .inl (hpc.trans hd)
      · rw [hr] at hd; cases hd
    · exact .inr (fun e he => hN e (by rw [← hq]; exact he))
  · refine ⟨hs'.trans hs, hD.imp hpc.trans (fun hN e he hc => ?_)⟩
    rw [hq, List.mem_append, List.mem_singleton] at he
    rcases he with he | rfl
    · exact hN e he hc
    · rw [hx, hs]; rfl
  · exact ⟨hs'.trans hs, .inl hpc⟩
  · refine ⟨hs'.trans hs, ?_⟩
    rcases hD with hd | hN
    · exact (hpc hd).imp id (fun he e hm => by rw [hq, he] at hm; cases hm)
    · exact .inr (fun e he => hN e (by rw [← hq]; exact he))

theorem loses_step (s : State) (a : Action) (s' : State) (hL : s.Loses) (h : step formatFilename s a = some s') :
    s'.Loses := by
  obtain ⟨hs, hnd, e, he, hc, hb⟩ := hL
  rcases step_queue h with ⟨-, hs', hq, hpc⟩ | ⟨hs', hpc, x, hq, hx⟩ | ⟨-, hd, -⟩ | ⟨hs', hq, hpc, -⟩
  · refine ⟨hs', ?_, e, hq ▸ he, hc, hb⟩
    rcases hpc with hpc | ⟨-, hpc⟩
    · rw [hpc]; exact hnd
    · rw [hpc]; exact fun hd => nomatch hd
  · exact ⟨hs'.trans hs, by rw [hpc]; exact hnd, e, by rw [hq]; exact List.mem_append_left _ he, hc, hb⟩
  · exact absurd hd hnd
  · refine ⟨hs'.trans hs, fun hd => ?_, e, hq ▸ he, hc, hb⟩
    rcases hpc hd with hd | hf
    · exact hnd hd
    · rw [hs] at hf; cases hf

theorem shutdown_of_exited (s : State) (a : Action) (s' : State) (hS : s.pc = .exited → s.shutdown = true)
    (h : step formatFilename s a = some s') : s'.pc = .exited → s'.shutdown = true := by
  intro hx
  rcases step_queue h with ⟨-, hs', -⟩ | ⟨hs', hpc, -⟩ | ⟨-, -, hpc, -⟩ | ⟨hs', -, -, -, hpc⟩
  · exact hs'
  · rw [hs']; exact hS (hpc ▸ hx)
  · rw [hpc] at hx; cases hx
  · rw [hs']
    exact (hpc hx).elim hS id

theorem drains_of_willDrain {s s' : State} {a : Action} (hw : s.WillDrain) (hs : s.shutdown = false)
    (h : step formatFilename s a = some s') (hs' : s'.shutdown = true) : s'.Drains := by
  rcases step_queue h with ⟨-, -, hq, hpc⟩ | ⟨he, -⟩ | ⟨he, -⟩ | ⟨he, -⟩
  · refine ⟨hs', ?_⟩
    rcases hw with hd | hn
    · rcases hpc with hpc | ⟨hr, -⟩
      · exact .inl (hpc.trans hd)
      · rw [hr] at hd; cases hd
    · exact .inr (fun e he hc => absurd (hn e (hq ▸ he)) hc)
  all_goals rw [he, hs] at hs'; cases hs'

theorem loses_of_not_willDrain {s s' : State} {a : Action} (hw : ¬ s.WillDrain) (hE : s.AllEarly)
    (hs : s.shutdown = false) (h : step formatFilename s a = some s') (hs' : s'.shutdown = true) : s'.Loses := by
  have hnd : s.pc ≠ .draining := fun hd => hw (.inl hd)
  have hex : ∃ e ∈ s.queue, e.client ≠ none := by
    by_contra hn
    exact hw (.inr (fun e he => by_contra (fun hc => hn ⟨e, he, hc⟩)))
  obtain ⟨e, he, hc⟩ := hex
  rcases step_queue h with ⟨-, -, hq, hpc⟩ | ⟨hf, -⟩ | ⟨hf, -⟩ | ⟨hf, -⟩
  · refine ⟨hs', ?_, e, hq ▸ he, hc, hE hs e he⟩
    rcases hpc with hpc | ⟨-, hpc⟩
    · rw [hpc]; exact hnd
    · rw [hpc]; exact fun hd => nomatch hd
  all_goals rw [hf, hs] at hs'; cases hs'

/-- A guarded step keeps the drain promised. -/
theorem drains_guard_step (s : State) (a : Action) (s' : State) (hI : s.shutdown = true → s.Drains)
    (h : guard (step formatFilename) DrainsAtShutdown s a = some s') : s'.shutdown = true → s'.Drains := by
  intro hs'
  obtain ⟨hg, h⟩ := guard_eq_some.1 h
  by_cases hs : s.shutdown = true
  · exact drains_step s a s' (hI hs) h
  · have hf : s.shutdown = false := by simpa using hs
    rcases step_queue h with ⟨ha | ha, -⟩ | ⟨he, -⟩ | ⟨he, -⟩ | ⟨he, -⟩
    · subst ha
      exact drains_of_willDrain (hg.resolve_left hs) hf h hs'
    · subst ha
      exact drains_of_willDrain (hg.resolve_left hs) hf h hs'
    all_goals exact absurd (he ▸ hs') hs

end

/-! ## Whole runs -/

/-- Every reply queued before the flag was set is reported when `run()` returns, in every run in which the flag is set
only while the server thread is inside the drain or nobody awaits what is queued; and in no other run. -/
theorem shutdown_reports (formatFilename : AssembledChunk → String → String) :
    (∀ (as : List Action) (s : State), run (guard (step formatFilename) DrainsAtShutdown) .init as = some s →
      s.pc = .exited → s.NothingLost) ∧
    (∀ (pre post : List Action) (a : Action) (s₁ s₂ s : State), run (step formatFilename) .init pre = some s₁ →
      s₁.shutdown = false → step formatFilename s₁ a = some s₂ → s₂.shutdown = true →
      run (step formatFilename) s₂ post = some s → s.pc = .exited → (s.NothingLost ↔ s₁.WillDrain)) := by
  constructor
  · intro as s hrun hx
    have hs : s.shutdown = true :=
      run_invariant _ _ shutdown_of_exited as .init s (fun h => nomatch h) (run_of_run_guard _ _ _ _ _ hrun) hx
    have hD : s.Drains := run_invariant _ _ drains_guard_step as .init s (fun h => nomatch h) hrun hs
    exact hD.2.resolve_left (fun hd => by rw [hx] at hd; cases hd)
  · intro pre post a s₁ s₂ s hpre hs₁ ha hs₂ hpost hx
    constructor
    · intro hN
      by_contra hw
      have hE : s₁.AllEarly := run_invariant _ _ allEarly_step pre .init s₁ (fun _ _ he => nomatch he) hpre
      obtain ⟨-, -, e, he, hc, hb⟩ : s.Loses :=
        run_invariant _ _ loses_step post s₂ s (loses_of_not_willDrain hw hE hs₁ ha hs₂) hpost
      rw [hN e he hc] at hb
      cases hb
    · intro hw
      have hD : s.Drains := run_invariant _ _ drains_step post s₂ s (drains_of_willDrain hw hs₁ ha hs₂) hpost
      exact hD.2.resolve_left (fun hd => by rw [hx] at hd; cases hd)

/-- A client's write, handled and passed to the output device; the server is back in `recv`. -/
def oneWrite : List Action :=
  [.isShutdown, .checkBackendQueue true, .recvWriteChunks [1] 5 ⟨"f", 0, false⟩ [⟨7, 0, 1024, 0, 1, 1⟩],
    .enqueueWriteRequest, .enqueueReturns true, .sendList true, .isShutdown, .checkBackendQueue true]

def drainedRun : List Action :=
  oneWrite ++ [.finished 0 true "SUCCEEDED" "", .enqueueWriteReply 0, .recvTimeout, .isShutdown,
    .checkBackendQueue true, .checkBackendQueue true]

theorem shutdown_reports_drained :
    let s₁ := (run (step (fun _ p => p)) .init drainedRun).get rfl
    let s := (run (guard (step (fun _ p => p)) DrainsAtShutdown) .init
      (drainedRun ++ [.doShutdown, .recvTimeout, .isShutdown])).get rfl
    s.NothingLost ∧ s₁.WillDrain := by
  intro s₁ s
  obtain ⟨hrep, hexact⟩ := shutdown_reports (fun _ p => p)
  have hN := hrep _ s (Option.some_get _).symm rfl
  exact ⟨hN, (hexact drainedRun [.recvTimeout, .isShutdown] .doShutdown s₁ _ s (Option.some_get _).symm rfl rfl rfl
    rfl rfl).1 hN⟩

/-- **A lost report.**  The write is reported while the server waits in `recv`.  Then the devices are joined and
`join_all_threads` sets the flag, or a `shutdown` request arrives: the next test of the flag ends the loop, and the
reply stays in the queue. -/
theorem shutdown_loses_reports :
    let reported := oneWrite ++ [.finished 0 true "SUCCEEDED" "", .enqueueWriteReply 0]
    let joined := (run (guard (step (fun _ p => p)) Joined) .init
      (reported ++ [.doShutdown, .recvTimeout, .isShutdown])).get rfl
    let asked := (run (guard (step (fun _ p => p)) Joined) .init (reported ++ [.recvShutdown, .isShutdown])).get rfl
    (joined.pc = .exited ∧ ¬ joined.NothingLost) ∧ (asked.pc = .exited ∧ ¬ asked.NothingLost) := by
  refine ⟨⟨rfl, fun h => ?_⟩, ⟨rfl, fun h => ?_⟩⟩
  · exact absurd (h _ (.head _) (fun hc => nomatch hc)) (by decide)
  · exact absurd (h _ (.head _) (fun hc => nomatch hc)) (by decide)

end Rpc
end FrbL1
