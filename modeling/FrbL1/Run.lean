import Mathlib.Data.List.Basic
/-!
# Run — runs of a partial step function

A system is a step function `σ → α → Option σ`: `none` where the action is not enabled.  `run` takes a list of actions
one after the other; every interleaving of the parties of a system is one such list.  An invariant of every step is an
invariant of every run (`run_invariant`), and a step function whose actions are restricted by a guard (`guard`) has the
runs of the original all of whose steps meet the guard (`run_of_run_guard`, `run_guard_of_run`).  What the steps of a
run show is a word, and an invariant may speak of the word so far (`run_shown_invariant`).
-/
namespace Trans

variable {σ α : Type}

/-- The state a list of actions reaches, if every action is enabled in turn. -/
def run (step : σ → α → Option σ) : σ → List α → Option σ
  | s, []      => some s
  | s, a :: as => (step s a).bind (fun s' => run step s' as)

@[simp] theorem run_nil (step : σ → α → Option σ) (s : σ) : run step s [] = some s := rfl

theorem run_cons_eq_some (step : σ → α → Option σ) (s s' : σ) (a : α) (as : List α) :
    run step s (a :: as) = some s' ↔ ∃ t, step s a = some t ∧ run step t as = some s' := by
  simp [run, Option.bind_eq_some_iff]

theorem run_append_eq_some (step : σ → α → Option σ) : ∀ (as bs : List α) (s s' : σ),
    run step s (as ++ bs) = some s' ↔ ∃ t, run step s as = some t ∧ run step t bs = some s'
  | [], bs, s, s' => by simp
  | a :: as, bs, s, s' => by
    rw [List.cons_append, run_cons_eq_some]
    constructor
    · rintro ⟨t, ht, h⟩
      obtain ⟨u, hu, h⟩ := (run_append_eq_some step as bs t s').1 h
      exact ⟨u, (run_cons_eq_some step s u a as).2 ⟨t, ht, hu⟩, h⟩
    · rintro ⟨u, hu, h⟩
      obtain ⟨t, ht, hu⟩ := (run_cons_eq_some step s u a as).1 hu
      exact ⟨t, ht, (run_append_eq_some step as bs t s').2 ⟨u, hu, h⟩⟩

/-- **A property every step keeps, every run keeps.** -/
theorem run_invariant (step : σ → α → Option σ) (I : σ → Prop)
    (hstep : ∀ s a s', I s → step s a = some s' → I s') :
    ∀ (as : List α) (s s' : σ), I s → run step s as = some s' → I s'
  | [], s, s', hs, h => by
    obtain rfl : s = s' := by simpa using h
    exact hs
  | a :: as, s, s', hs, h => by
    obtain ⟨t, ht, h⟩ := (run_cons_eq_some step s s' a as).1 h
    exact run_invariant step I hstep as t s' (hstep s a t hs ht) h

/-- A state some run from `init` reaches. -/
def Reachable (step : σ → α → Option σ) (init s : σ) : Prop := ∃ as, run step init as = some s

theorem Reachable.refl (step : σ → α → Option σ) (init : σ) : Reachable step init init := ⟨[], rfl⟩

theorem Reachable.step {step : σ → α → Option σ} {init s s' : σ} {a : α} (h : Reachable step init s)
    (ha : step s a = some s') : Reachable step init s' := by
  obtain ⟨as, h⟩ := h
  exact ⟨as ++ [a], (run_append_eq_some step as [a] init s').2 ⟨s, h, by simp [run, ha]⟩⟩

theorem Reachable.invariant {step : σ → α → Option σ} {init s : σ} (h : Reachable step init s) (I : σ → Prop)
    (h0 : I init) (hstep : ∀ s a s', I s → step s a = some s' → I s') : I s := by
  obtain ⟨as, h⟩ := h
  exact run_invariant step I hstep as init s h0 h

/-! ## What the steps of a run show -/

section
variable {ω : Type}

/-- What the steps of a run show, one after the other. -/
def shown (step : σ → α → Option σ) (obs : σ → α → List ω) : σ → List α → List ω
  | _, []      => []
  | s, a :: as => obs s a ++ (step s a).elim [] (fun s' => shown step obs s' as)

/-- **An invariant of the states and of what was shown before.** -/
theorem run_shown_invariant (step : σ → α → Option σ) (obs : σ → α → List ω) (I : σ → List ω → Prop)
    (hstep : ∀ s w a s', I s w → step s a = some s' → I s' (w ++ obs s a)) :
    ∀ (as : List α) (s s' : σ) (w : List ω), I s w → run step s as = some s' → I s' (w ++ shown step obs s as)
  | [], s, s', w, hs, h => by
    obtain rfl : s = s' := by simpa using h
    simpa [shown] using hs
  | a :: as, s, s', w, hs, h => by
    obtain ⟨t, ht, h⟩ := (run_cons_eq_some step s s' a as).1 h
    have hI := run_shown_invariant step obs I hstep as t s' (w ++ obs s a) (hstep s w a t hs ht) h
    rw [List.append_assoc] at hI
    rwa [shown, ht]

end

/-! ## Guards -/

/-- The steps of `step` that a guard lets through. -/
def guard (step : σ → α → Option σ) (P : σ → α → Prop) [∀ s a, Decidable (P s a)] : σ → α → Option σ :=
  fun s a => if P s a then step s a else none

theorem guard_eq_some {step : σ → α → Option σ} {P : σ → α → Prop} [∀ s a, Decidable (P s a)] {s s' : σ} {a : α} :
    guard step P s a = some s' ↔ P s a ∧ step s a = some s' := by
  unfold guard
  by_cases h : P s a <;> simp [h]

theorem run_of_run_guard (step : σ → α → Option σ) (P : σ → α → Prop) [∀ s a, Decidable (P s a)] :
    ∀ (as : List α) (s s' : σ), run (guard step P) s as = some s' → run step s as = some s'
  | [], _, _, h => h
  | a :: as, s, s', h => by
    obtain ⟨t, ht, h⟩ := (run_cons_eq_some (guard step P) s s' a as).1 h
    exact (run_cons_eq_some step s s' a as).2
      ⟨t, (guard_eq_some.1 ht).2, run_of_run_guard step P as t s' h⟩

theorem shown_guard (step : σ → α → Option σ) (P : σ → α → Prop) [∀ s a, Decidable (P s a)] {ω : Type}
    (obs : σ → α → List ω) : ∀ (as : List α) (s s' : σ), run (guard step P) s as = some s' →
      shown (guard step P) obs s as = shown step obs s as
  | [], _, _, _ => rfl
  | a :: as, s, s', h => by
    obtain ⟨t, ht, h⟩ := (run_cons_eq_some (guard step P) s s' a as).1 h
    rw [shown, shown, ht, (guard_eq_some.1 ht).2]
    exact congrArg (obs s a ++ ·) (shown_guard step P obs as t s' h)

/-- **A run that ends well has met the guard**, where an action that does not meet it spoils the rest of the run. -/
theorem run_guard_of_run (step : σ → α → Option σ) (P : σ → α → Prop) [∀ s a, Decidable (P s a)] {I Spoilt : σ → Prop}
    (hmeets : ∀ s a s', I s → P s a → step s a = some s' → I s')
    (hmisses : ∀ s a s', I s → ¬ P s a → step s a = some s' → Spoilt s')
    (hstays : ∀ s a s', Spoilt s → step s a = some s' → Spoilt s') :
    ∀ (as : List α) (s s' : σ), I s → run step s as = some s' → ¬ Spoilt s' → run (guard step P) s as = some s'
  | [], _, _, _, h, _ => h
  | a :: as, s, s', hs, h, hwell => by
    obtain ⟨t, ht, h⟩ := (run_cons_eq_some step s s' a as).1 h
    by_cases hP : P s a
    · exact (run_cons_eq_some (guard step P) s s' a as).2 ⟨t, guard_eq_some.2 ⟨hP, ht⟩,
        run_guard_of_run step P hmeets hmisses hstays as t s' (hmeets s a t hs hP ht) h hwell⟩
    · exact absurd (run_invariant step Spoilt hstays as t s' (hmisses s a t hs hP ht) h) hwell

/-- One action, taken over and over, leads from `s` to `P`. -/
def Alone (step : σ → α → Option σ) (a : α) (P : σ → Prop) (s : σ) : Prop :=
  ∃ n s', run step s (List.replicate n a) = some s' ∧ P s'

/-- **If each time a measure falls**, until `P` holds. -/
theorem alone_of_measure (step : σ → α → Option σ) (a : α) (P I : σ → Prop) (μ : σ → Nat)
    (h : ∀ s, I s → ¬ P s → ∃ t, step s a = some t ∧ I t ∧ μ t < μ s) (s : σ) (hs : I s) : Alone step a P s := by
  induction hn : μ s using Nat.strongRecOn generalizing s with
  | ind n ih =>
    by_cases hP : P s
    · exact ⟨0, s, rfl, hP⟩
    · obtain ⟨t, ht, hI, hlt⟩ := h s hs hP
      obtain ⟨k, s', hrun, hP'⟩ := ih (μ t) (hn ▸ hlt) t hI rfl
      exact ⟨k + 1, s', (run_cons_eq_some step s s' a _).2 ⟨t, ht, hrun⟩, hP'⟩

/-- **Enough actions of a kind lead to `P`**, in any order, where each keeps `P` or lets a measure fall until it holds. -/
theorem run_of_measure (step : σ → α → Option σ) {A : α → Prop} {P I : σ → Prop} {μ : σ → Nat}
    (h : ∀ s a, A a → I s → ∃ t, step s a = some t ∧ I t ∧ (P t ∨ ¬ P s ∧ μ t < μ s)) :
    ∀ (as : List α) (s : σ), (∀ a ∈ as, A a) → I s → (P s ∨ μ s < as.length) →
      ∃ t, run step s as = some t ∧ I t ∧ P t
  | [],      s, _,  hI, hP => ⟨s, rfl, hI, hP.resolve_right (Nat.not_lt_zero _)⟩
  | a :: as, s, hA, hI, hP => by
    obtain ⟨t, ht, hI', hnext⟩ := h s a (hA a (.head _)) hI
    have hP' : P t ∨ μ t < as.length := by
      refine hnext.imp_right (fun hlt => ?_)
      have hμ : μ s < as.length + 1 := hP.resolve_left hlt.1
      omega
    obtain ⟨u, hu, hIu, hPu⟩ := run_of_measure step h as t (fun b hb => hA b (.tail _ hb)) hI' hP'
    exact ⟨u, (run_cons_eq_some step s u a as).2 ⟨t, ht, hu⟩, hIu, hPu⟩

/-- **A measure that falls with each action of a kind** bounds the actions of that kind. -/
theorem length_le_of_measure (step : σ → α → Option σ) {A : α → Prop} {μ : σ → Nat}
    (h : ∀ s a s', A a → step s a = some s' → μ s' < μ s) :
    ∀ (as : List α) (s s' : σ), (∀ a ∈ as, A a) → run step s as = some s' → as.length + μ s' ≤ μ s
  | [], s, s', _, hrun => by
    obtain rfl : s = s' := by simpa using hrun
    simp
  | a :: as, s, s', hA, hrun => by
    obtain ⟨t, ht, hrun⟩ := (run_cons_eq_some step s s' a as).1 hrun
    have hlt := h s a t (hA a (.head _)) ht
    have hle := length_le_of_measure step h as t s' (fun b hb => hA b (.tail _ hb)) hrun
    rw [List.length_cons]
    omega

end Trans
