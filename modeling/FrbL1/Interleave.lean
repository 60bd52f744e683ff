import FrbL1.Run
/-!
# Interleave — programs of atomic operations, alone and side by side

A program (`Prog`) performs atomic operations on a shared state, each chosen by the results of those before, and ends
with a value or an exception.  `solo` runs it alone.  `stepPool` lets one of several programs perform its next
operation, so that a run of the pool is an interleaving.

`wp` is the rely-guarantee condition: under interference of the others that keeps within `R`, the program's own
operations keep within `G` and it ends with `Q`.  Programs whose guarantees are within each other's relies can be run
side by side (`wp_pool`), and a program alone is the case without interference (`wp_solo`).  `Runs` says what a program
can perform and how it can end whatever its operations do.
-/
namespace Conc

open Trans

/-- A program over atomic operations `Op` with results `Res`, exceptions `ε` and value `α`. -/
inductive Prog (Op : Type) (Res : Op → Type) (ε α : Type)
  | ret (a : α)
  | throw (e : ε)
  | op (o : Op) (k : Res o → Prog Op Res ε α)

namespace Prog

variable {Op : Type} {Res : Op → Type} {ε α β σ : Type}

def bind : Prog Op Res ε α → (α → Prog Op Res ε β) → Prog Op Res ε β
  | ret a,   f => f a
  | throw e, _ => throw e
  | op o k,  f => op o (fun r => bind (k r) f)

instance : Monad (Prog Op Res ε) where
  pure := ret
  bind := bind

/-- `p`, and `h` where `p` throws. -/
def tryCatch : Prog Op Res ε α → (ε → Prog Op Res ε α) → Prog Op Res ε α
  | ret a,   _ => ret a
  | throw e, h => h e
  | op o k,  h => op o (fun r => tryCatch (k r) h)

def collect (f : β → Prog Op Res ε α) : List β → Prog Op Res ε (List α)
  | []      => ret []
  | x :: xs => bind (f x) (fun a => bind (collect f xs) (fun as => ret (a :: as)))

def perform (o : Op) : Prog Op Res ε (Res o) := op o ret

def outcome : Prog Op Res ε α → Option (Except ε α)
  | ret a   => some (.ok a)
  | throw e => some (.error e)
  | op _ _  => none

section
variable (sem : (o : Op) → σ → Res o × σ)

def solo : Prog Op Res ε α → σ → Except ε α × σ
  | ret a,   s => (.ok a, s)
  | throw e, s => (.error e, s)
  | op o k,  s => solo (k (sem o s).1) (sem o s).2

/-- The next operation of the `i`-th program. -/
def stepPool (x : σ × List (Prog Op Res ε α)) (i : Nat) : Option (σ × List (Prog Op Res ε α)) :=
  match x.2[i]? with
  | some (op o k) => some ((sem o x.1).2, x.2.set i (k (sem o x.1).1))
  | _             => none

/-- **Rely and guarantee.** -/
def wp (G R : σ → σ → Prop) (Q : Except ε α → σ → Prop) : Prog Op Res ε α → σ → Prop
  | ret a,   s => ∀ s', R s s' → Q (.ok a) s'
  | throw e, s => ∀ s', R s s' → Q (.error e) s'
  | op o k,  s => ∀ s', R s s' → G s' (sem o s').2 ∧ wp G R Q (k (sem o s').1) (sem o s').2

variable {sem} {G R : σ → σ → Prop} {Q Q' : Except ε α → σ → Prop}

theorem wp_mono (hQ : ∀ r s, Q r s → Q' r s) : ∀ (p : Prog Op Res ε α) (s : σ), wp sem G R Q p s → wp sem G R Q' p s
  | ret _,   _, h => fun s' hs => hQ _ s' (h s' hs)
  | throw _, _, h => fun s' hs => hQ _ s' (h s' hs)
  | op _ k,  _, h => fun s' hs => ⟨(h s' hs).1, wp_mono hQ (k _) _ (h s' hs).2⟩

theorem wp_rely (htrans : ∀ s₁ s₂ s₃, R s₁ s₂ → R s₂ s₃ → R s₁ s₃) :
    ∀ (p : Prog Op Res ε α) (s s' : σ), wp sem G R Q p s → R s s' → wp sem G R Q p s'
  | ret _,   s, s', h, hs => fun s'' hs' => h s'' (htrans s s' s'' hs hs')
  | throw _, s, s', h, hs => fun s'' hs' => h s'' (htrans s s' s'' hs hs')
  | op _ _,  s, s', h, hs => fun s'' hs' => h s'' (htrans s s' s'' hs hs')

theorem wp_bind (hrefl : ∀ s, R s s) {Q : Except ε β → σ → Prop} (f : α → Prog Op Res ε β) :
    ∀ (p : Prog Op Res ε α) (s : σ),
      wp sem G R (fun r s => match r with | .ok a => wp sem G R Q (f a) s | .error e => Q (.error e) s) p s →
      wp sem G R Q (p.bind f) s
  | ret _,   s, h => h s (hrefl s)
  | throw _, _, h => h
  | op _ k,  _, h => fun s' hs => ⟨(h s' hs).1, wp_bind hrefl f (k _) _ (h s' hs).2⟩

theorem wp_solo (hrefl : ∀ s, R s s) : ∀ (p : Prog Op Res ε α) (s : σ),
    wp sem G R Q p s → Q (solo sem p s).1 (solo sem p s).2
  | ret _,   s, h => h s (hrefl s)
  | throw _, s, h => h s (hrefl s)
  | op _ k,  s, h => wp_solo hrefl (k _) _ (h s (hrefl s)).2

end

/-! ## As if alone -/

section
variable (sem : (o : Op) → σ → Res o × σ) (G R : σ → σ → Prop)

/-- **As if alone**: where the state is that of a run alone plus interference, the program ends as it would alone, with
a state that again is that of the run alone plus interference.  `I` is what the run alone begins with, and `J` what it
ends with. -/
def Follows (I : σ → Prop) (J : Except ε α → σ → Prop) (p : Prog Op Res ε α) : Prop :=
  ∀ u t, I u → R u t → wp sem G R (fun r t' =>
    r = (solo sem p u).1 ∧ R (solo sem p u).2 t' ∧ J (solo sem p u).1 (solo sem p u).2) p t

variable {sem G R} {I I' : σ → Prop} {J J' : Except ε α → σ → Prop}

theorem follows_ret (htrans : ∀ s₁ s₂ s₃, R s₁ s₂ → R s₂ s₃ → R s₁ s₃) (a : α) (h : ∀ u, I u → J (.ok a) u) :
    Follows sem G R I J (ret a : Prog Op Res ε α) :=
  fun u t hu ht s' hs => ⟨rfl, htrans u t s' ht hs, h u hu⟩

theorem follows_throw (htrans : ∀ s₁ s₂ s₃, R s₁ s₂ → R s₂ s₃ → R s₁ s₃) (e : ε) (h : ∀ u, I u → J (.error e) u) :
    Follows sem G R I J (throw e : Prog Op Res ε α) :=
  fun u t hu ht s' hs => ⟨rfl, htrans u t s' ht hs, h u hu⟩

/-- An operation with the same result alone and under interference. -/
theorem follows_op (htrans : ∀ s₁ s₂ s₃, R s₁ s₂ → R s₂ s₃ → R s₁ s₃) (o : Op) (k : Res o → Prog Op Res ε α)
    (I' : Res o → σ → Prop)
    (hop : ∀ u t, I u → R u t → G t (sem o t).2 ∧ (sem o t).1 = (sem o u).1 ∧ R (sem o u).2 (sem o t).2 ∧
      I' (sem o u).1 (sem o u).2)
    (hk : ∀ r, Follows sem G R (I' r) J (k r)) : Follows sem G R I J (op o k) := by
  intro u t hu ht s' hs
  obtain ⟨hG, hres, hR, hI⟩ := hop u s' hu (htrans u t s' ht hs)
  refine ⟨hG, ?_⟩
  rw [hres]
  exact hk _ _ _ hI hR

theorem follows_mono (hI : ∀ u, I' u → I u) (hJ : ∀ r u, J r u → J' r u) {p : Prog Op Res ε α}
    (h : Follows sem G R I J p) : Follows sem G R I' J' p :=
  fun u t hu ht => wp_mono (fun _ _ hr => ⟨hr.1, hr.2.1, hJ _ _ hr.2.2⟩) p t (h u t (hI u hu) ht)

theorem follows_exists {τ : Type} {I : τ → σ → Prop} {p : Prog Op Res ε α} (h : ∀ x, Follows sem G R (I x) J p) :
    Follows sem G R (fun u => ∃ x, I x u) J p := by
  rintro u t ⟨x, hu⟩ ht
  exact h x u t hu ht

theorem solo_bind (f : α → Prog Op Res ε β) : ∀ (p : Prog Op Res ε α) (u : σ),
    solo sem (p.bind f) u = match solo sem p u with
      | (.ok a, u')    => solo sem (f a) u'
      | (.error e, u') => (.error e, u')
  | ret _,   _ => rfl
  | throw _, _ => rfl
  | op o k,  u => solo_bind f (k (sem o u).1) (sem o u).2

theorem solo_bind_ok {p : Prog Op Res ε α} {f : α → Prog Op Res ε β} {u u' : σ} {b : β}
    (h : solo sem (p >>= f) u = (.ok b, u')) : ∃ a u₁, solo sem p u = (.ok a, u₁) ∧ solo sem (f a) u₁ = (.ok b, u') := by
  change solo sem (p.bind f) u = _ at h
  rw [solo_bind] at h
  split at h
  · rename_i a u₁ hp
    exact ⟨a, u₁, hp, h⟩
  · cases h

theorem follows_bind (hrefl : ∀ s, R s s) {K : Except ε β → σ → Prop} {p : Prog Op Res ε α}
    {f : α → Prog Op Res ε β} (hp : Follows sem G R I J p) (hf : ∀ a, Follows sem G R (J (.ok a)) K (f a))
    (he : ∀ e u, J (.error e) u → K (.error e) u) : Follows sem G R I K (p.bind f) := by
  intro u t hu ht
  refine wp_bind hrefl f p t (wp_mono (fun r t' h => ?_) p t (hp u t hu ht))
  obtain ⟨hr, hR, hJ⟩ := h
  subst hr
  rw [solo_bind]
  generalize solo sem p u = x at hR hJ ⊢
  obtain ⟨r, u'⟩ := x
  cases r with
  | ok a => exact hf a u' t' hJ hR
  | error e => exact ⟨rfl, hR, he e u' hJ⟩

end

theorem solo_tryCatch (h : ε → Prog Op Res ε α) : ∀ (p : Prog Op Res ε α) (u : σ),
    solo sem (p.tryCatch h) u = match solo sem p u with
      | (.ok a, u')    => (.ok a, u')
      | (.error e, u') => solo sem (h e) u'
  | ret _,   _ => rfl
  | throw _, _ => rfl
  | op o k,  u => solo_tryCatch h (k (sem o u).1) (sem o u).2

theorem solo_bind_of_ok {p : Prog Op Res ε α} {f : α → Prog Op Res ε β} {u u' : σ} {a : α}
    (h : solo sem p u = (.ok a, u')) : solo sem (p.bind f) u = solo sem (f a) u' := by
  rw [solo_bind, h]

theorem solo_bind_of_error {p : Prog Op Res ε α} {f : α → Prog Op Res ε β} {u u' : σ} {e : ε}
    (h : solo sem p u = (.error e, u')) : solo sem (p.bind f) u = (.error e, u') := by
  rw [solo_bind, h]

theorem solo_tryCatch_of_ok {p : Prog Op Res ε α} (f : ε → Prog Op Res ε α) {u u' : σ} {a : α}
    (h : solo sem p u = (.ok a, u')) : solo sem (p.tryCatch f) u = (.ok a, u') := by
  rw [solo_tryCatch, h]

theorem solo_tryCatch_of_error {p : Prog Op Res ε α} (f : ε → Prog Op Res ε α) {u u' : σ} {e : ε}
    (h : solo sem p u = (.error e, u')) : solo sem (p.tryCatch f) u = solo sem (f e) u' := by
  rw [solo_tryCatch, h]

theorem bind_assoc {γ : Type} (f : α → Prog Op Res ε β) (g : β → Prog Op Res ε γ) : ∀ p : Prog Op Res ε α,
    (p.bind f).bind g = p.bind (fun a => (f a).bind g)
  | ret _   => rfl
  | throw _ => rfl
  | op o k  => congrArg (op o) (funext (fun r => bind_assoc f g (k r)))

theorem solo_keeps {P : σ → Prop} (hop : ∀ o s, P s → P (sem o s).2) : ∀ (p : Prog Op Res ε α) (s : σ),
    P s → P (solo sem p s).2
  | ret _,   _, h => h
  | throw _, _, h => h
  | op o k,  s, h => solo_keeps hop (k _) _ (hop o s h)

/-! ## Whatever the operations do -/

/-- **A run**: with results that `A` allows, the program performs these operations and ends so. -/
def Runs (A : (o : Op) → Res o → Prop) : Prog Op Res ε α → Except ε α → List Op → Prop
  | ret a,   r, l => r = .ok a ∧ l = []
  | throw e, r, l => r = .error e ∧ l = []
  | op o k,  r, l => ∃ x l', A o x ∧ l = o :: l' ∧ Runs A (k x) r l'

theorem runs_of_solo (sem : (o : Op) → σ → Res o × σ) : ∀ (p : Prog Op Res ε α) (s : σ),
    ∃ l, Runs (fun _ _ => True) p (solo sem p s).1 l
  | ret _,   _ => ⟨[], rfl, rfl⟩
  | throw _, _ => ⟨[], rfl, rfl⟩
  | op o k,  s => by
    obtain ⟨l, hl⟩ := runs_of_solo sem (k (sem o s).1) (sem o s).2
    exact ⟨o :: l, _, l, trivial, rfl, hl⟩

section
variable {A : (o : Op) → Res o → Prop}

theorem runs_bind {f : α → Prog Op Res ε β} {r : Except ε β} : ∀ {p : Prog Op Res ε α} {l : List Op},
    Runs A (p.bind f) r l → (∃ a l₁ l₂, Runs A p (.ok a) l₁ ∧ Runs A (f a) r l₂ ∧ l = l₁ ++ l₂) ∨
      ∃ e, r = .error e ∧ Runs A p (.error e) l
  | ret a,   l, h => .inl ⟨a, [], l, ⟨rfl, rfl⟩, h, rfl⟩
  | throw e, _, ⟨hr, hl⟩ => .inr ⟨e, hr, rfl, hl⟩
  | op o k,  l, ⟨x, l', hx, hl, h⟩ => by
    have hk : Runs A ((k x).bind f) r l' := h
    rcases runs_bind hk with ⟨a, l₁, l₂, h₁, h₂, rfl⟩ | ⟨e, hr, he⟩
    · exact .inl ⟨a, o :: l₁, l₂, ⟨x, l₁, hx, rfl, h₁⟩, h₂, hl⟩
    · exact .inr ⟨e, hr, x, l', hx, hl, he⟩

theorem runs_bind_ok {p : Prog Op Res ε α} {f : α → Prog Op Res ε β} {b : β} {l : List Op}
    (h : Runs A (p.bind f) (.ok b) l) :
    ∃ a l₁ l₂, Runs A p (.ok a) l₁ ∧ Runs A (f a) (.ok b) l₂ ∧ l = l₁ ++ l₂ := by
  rcases runs_bind h with h | ⟨e, he, -⟩
  · exact h
  · cases he

theorem runs_collect_cons {f : β → Prog Op Res ε α} {x : β} {xs : List β} {as : List α} {l : List Op}
    (h : Runs A (collect f (x :: xs)) (.ok as) l) : ∃ a as' l₁ l₂, as = a :: as' ∧ l = l₁ ++ l₂ ∧
      Runs A (f x) (.ok a) l₁ ∧ Runs A (collect f xs) (.ok as') l₂ := by
  obtain ⟨a, l₁, l', hx, hrest, rfl⟩ := runs_bind_ok (p := f x) h
  obtain ⟨as', l₂, l₃, hxs, ⟨hret, rfl⟩, rfl⟩ := runs_bind_ok (p := collect f xs) hrest
  exact ⟨a, as', l₁, l₂, Except.ok.inj hret, by rw [List.append_nil], hx, hxs⟩

theorem runs_collect {γ : Type} {f : β → Prog Op Res ε α} {g : β → α} {φ : Op → Option γ} {w : β → List γ}
    {P : β → Prop} (hf : ∀ x a l, Runs A (f x) (.ok a) l → P x ∧ a = g x ∧ l.filterMap φ = w x) :
    ∀ {xs : List β} {as : List α} {l : List Op}, Runs A (collect f xs) (.ok as) l →
      (∀ x ∈ xs, P x) ∧ as = xs.map g ∧ l.filterMap φ = xs.flatMap w
  | [], as, l, ⟨h, hl⟩ => by
    cases h
    subst hl
    simp
  | x :: xs, as, l, h => by
    obtain ⟨a, as', l₁, l₂, rfl, rfl, hx, hxs⟩ := runs_collect_cons h
    obtain ⟨hP, rfl, hw⟩ := hf x a l₁ hx
    obtain ⟨hPs, rfl, hws⟩ := runs_collect hf hxs
    exact ⟨List.forall_mem_cons.2 ⟨hP, hPs⟩, rfl, by simp [hw, hws]⟩

theorem runs_collect_forall₂ {f : β → Prog Op Res ε α} {w : β → List Op} {P : β → α → Prop}
    (hf : ∀ x a l, Runs A (f x) (.ok a) l → P x a ∧ l = w x) : ∀ {xs : List β} {as : List α} {l : List Op},
      Runs A (collect f xs) (.ok as) l → List.Forall₂ P xs as ∧ l = xs.flatMap w
  | [],      as, l, ⟨h, hl⟩ => by
    cases h
    exact ⟨.nil, hl⟩
  | x :: xs, as, l, h => by
    obtain ⟨a, as', l₁, l₂, rfl, rfl, hx, hxs⟩ := runs_collect_cons h
    obtain ⟨hP, rfl⟩ := hf x a l₁ hx
    obtain ⟨hPs, rfl⟩ := runs_collect_forall₂ hf hxs
    exact ⟨.cons hP hPs, List.flatMap_cons.symm⟩

/-- With results that `A` allows, the program does not throw. -/
def NoThrow (A : (o : Op) → Res o → Prop) : Prog Op Res ε α → Prop
  | ret _   => True
  | throw _ => False
  | op o k  => ∀ x, A o x → NoThrow A (k x)

theorem noThrow_bind {f : α → Prog Op Res ε β} (hf : ∀ a, NoThrow A (f a)) : ∀ {p : Prog Op Res ε α}, NoThrow A p →
    NoThrow A (p.bind f)
  | ret a,  _ => hf a
  | op _ _, h => fun x hx => noThrow_bind hf (h x hx)

theorem noThrow_tryCatch (h : ε → Prog Op Res ε α) : ∀ {p : Prog Op Res ε α}, NoThrow A p → NoThrow A (p.tryCatch h)
  | ret _,  _ => trivial
  | op _ _, hp => fun x hx => noThrow_tryCatch h (hp x hx)

theorem noThrow_collect {f : β → Prog Op Res ε α} : ∀ {xs : List β}, (∀ x ∈ xs, NoThrow A (f x)) →
    NoThrow A (collect f xs)
  | [],      _ => trivial
  | x :: xs, h => by
    have hrest : NoThrow A (collect f xs) := noThrow_collect (fun y hy => h y (.tail x hy))
    refine noThrow_bind (fun a => noThrow_bind (fun as => ?_) hrest) (h x (.head xs))
    exact True.intro

theorem ok_of_runs {r : Except ε α} : ∀ {p : Prog Op Res ε α} {l : List Op}, NoThrow A p → Runs A p r l → ∃ a, r = .ok a
  | ret a,  _, _, ⟨hr, _⟩ => ⟨a, hr⟩
  | op _ _, _, h, ⟨x, _, hx, _, hrun⟩ => ok_of_runs (h x hx) hrun

end

def Only (S : Op → Prop) : Prog Op Res ε α → Prop
  | ret _   => True
  | throw _ => True
  | op o k  => S o ∧ ∀ r, Only S (k r)

section
variable {S : Op → Prop}

theorem only_bind {f : α → Prog Op Res ε β} (hf : ∀ a, Only S (f a)) : ∀ {p : Prog Op Res ε α}, Only S p →
    Only S (p.bind f)
  | ret a,   _ => hf a
  | throw _, _ => trivial
  | op _ _,  h => ⟨h.1, fun r => only_bind hf (h.2 r)⟩

theorem only_tryCatch {h : ε → Prog Op Res ε α} (hh : ∀ e, Only S (h e)) : ∀ {p : Prog Op Res ε α}, Only S p →
    Only S (p.tryCatch h)
  | ret _,   _ => trivial
  | throw e, _ => hh e
  | op _ _,  hp => ⟨hp.1, fun r => only_tryCatch hh (hp.2 r)⟩

theorem mem_of_runs {A : (o : Op) → Res o → Prop} {r : Except ε α} : ∀ {p : Prog Op Res ε α} {l : List Op},
    Only S p → Runs A p r l → ∀ o ∈ l, S o
  | ret _,   l, _, ⟨_, hl⟩, o, ho => by rw [hl] at ho; cases ho
  | throw _, l, _, ⟨_, hl⟩, o, ho => by rw [hl] at ho; cases ho
  | op _ _,  l, h, ⟨x, l', _, hl, hrun⟩, o, ho => by
    rw [hl] at ho
    rcases List.mem_cons.1 ho with rfl | ho
    · exact h.1
    · exact mem_of_runs (h.2 x) hrun o ho

end

/-! ## Side by side -/

section
variable {sem : (o : Op) → σ → Res o × σ} {G R : Nat → σ → σ → Prop} {Q : Nat → Except ε α → σ → Prop}

theorem stepPool_eq_some {x x' : σ × List (Prog Op Res ε α)} {i : Nat} :
    stepPool sem x i = some x' ↔ ∃ o k, x.2[i]? = some (op o k) ∧
      x' = ((sem o x.1).2, x.2.set i (k (sem o x.1).1)) := by
  unfold stepPool
  split
  · rename_i o k h
    constructor
    · intro hx
      exact ⟨o, k, h, (Option.some.inj hx).symm⟩
    · rintro ⟨o', k', h', rfl⟩
      rw [h] at h'
      cases h'
      rfl
  · rename_i h
    constructor
    · intro hx; cases hx
    · rintro ⟨o, k, h', -⟩
      exact absurd h' (h o k)

def PoolOk (sem : (o : Op) → σ → Res o × σ) (G R : Nat → σ → σ → Prop) (Q : Nat → Except ε α → σ → Prop)
    (x : σ × List (Prog Op Res ε α)) : Prop :=
  ∀ i p, x.2[i]? = some p → wp sem (G i) (R i) (Q i) p x.1

/-- One operation of one program: its own condition goes on, and for the others it is interference. -/
theorem poolOk_step (hrefl : ∀ i s, R i s s) (htrans : ∀ i s₁ s₂ s₃, R i s₁ s₂ → R i s₂ s₃ → R i s₁ s₃)
    (hGR : ∀ i j, i ≠ j → ∀ s s', G i s s' → R j s s') (x : σ × List (Prog Op Res ε α)) (i : Nat)
    (x' : σ × List (Prog Op Res ε α)) (hx : PoolOk sem G R Q x) (h : stepPool sem x i = some x') :
    PoolOk sem G R Q x' := by
  obtain ⟨o, k, hi, rfl⟩ := stepPool_eq_some.1 h
  obtain ⟨hG, hk⟩ := hx i _ hi x.1 (hrefl i x.1)
  intro j p hj
  by_cases hij : i = j
  · subst hij
    obtain ⟨hlt, -⟩ := List.getElem?_eq_some_iff.1 hi
    simp only [List.getElem?_set_self hlt, Option.some.injEq] at hj
    rw [← hj]
    exact hk
  · simp only [List.getElem?_set_ne hij] at hj
    exact wp_rely (htrans j) p x.1 _ (hx j p hj) (hGR i j hij _ _ hG)

/-- **Programs side by side**: what each guarantees the others rely on, and each ends with its own `Q`. -/
theorem wp_pool (hrefl : ∀ i s, R i s s) (htrans : ∀ i s₁ s₂ s₃, R i s₁ s₂ → R i s₂ s₃ → R i s₁ s₃)
    (hGR : ∀ i j, i ≠ j → ∀ s s', G i s s' → R j s s') (sched : List Nat) (x x' : σ × List (Prog Op Res ε α))
    (hx : PoolOk sem G R Q x) (hrun : run (stepPool sem) x sched = some x') :
    ∀ i p r, x'.2[i]? = some p → p.outcome = some r → Q i r x'.1 := by
  have hok : PoolOk sem G R Q x' := run_invariant _ _ (poolOk_step hrefl htrans hGR) sched x x' hx hrun
  intro i p r hi hr
  have h := hok i p hi
  cases p with
  | ret a => cases hr; exact h x'.1 (hrefl i x'.1)
  | throw e => cases hr; exact h x'.1 (hrefl i x'.1)
  | op o k => cases hr

/-- What all the programs guarantee holds of the whole run. -/
theorem guarantee_pool {T : σ → σ → Prop} (hrefl : ∀ i s, R i s s)
    (htrans : ∀ i s₁ s₂ s₃, R i s₁ s₂ → R i s₂ s₃ → R i s₁ s₃)
    (hGR : ∀ i j, i ≠ j → ∀ s s', G i s s' → R j s s') (hGT : ∀ i s s', G i s s' → T s s') (hT : ∀ s, T s s)
    (hT' : ∀ s₁ s₂ s₃, T s₁ s₂ → T s₂ s₃ → T s₁ s₃) (sched : List Nat) (x x' : σ × List (Prog Op Res ε α))
    (hx : PoolOk sem G R Q x) (hrun : run (stepPool sem) x sched = some x') : T x.1 x'.1 := by
  refine (run_invariant (stepPool sem) (fun y => T x.1 y.1 ∧ PoolOk sem G R Q y) ?_ sched x x' ⟨hT _, hx⟩ hrun).1
  rintro y i y' ⟨hy, hok⟩ h
  refine ⟨?_, poolOk_step hrefl htrans hGR y i y' hok h⟩
  obtain ⟨o, k, hi, rfl⟩ := stepPool_eq_some.1 h
  exact hT' _ _ _ hy (hGT i _ _ (hok i _ hi y.1 (hrefl i y.1)).1)

end

end Prog

end Conc
