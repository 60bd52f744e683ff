import Mathlib.Data.List.Basic
/-!
# Fallible — loops whose steps can fail

A loop over a list succeeds if each of its steps does (`mapM_eq_some`, `foldlM_eq_some`, `mapM_forall₂`), and
only then (`forall₂_of_mapM`, `forall₂_of_mapM_some`, `mapM_check`).
-/
namespace Fallible

variable {α β σ ε : Type}

theorem mapM_eq_pure {m : Type → Type} [Monad m] [LawfulMonad m] {f : α → m β} {g : α → β} : ∀ {l : List α},
    (∀ a ∈ l, f a = pure (g a)) → l.mapM f = pure (l.map g)
  | [],     _ => List.mapM_nil
  | a :: l, h => by
    rw [List.mapM_cons, h a (.head _), mapM_eq_pure (fun b hb => h b (.tail _ hb)), pure_bind, pure_bind]
    rfl

theorem mapM_eq_some {f : α → Option β} {g : α → β} {l : List α} (h : ∀ a ∈ l, f a = some (g a)) :
    l.mapM f = some (l.map g) :=
  mapM_eq_pure h

theorem foldlM_eq_some {f : σ → α → Option σ} {g : σ → α → σ} : ∀ {l : List α},
    (∀ a ∈ l, ∀ s, f s a = some (g s a)) → ∀ s, l.foldlM f s = some (l.foldl g s)
  | [],     _, _ => rfl
  | a :: l, h, s => by
    rw [List.foldlM_cons, h a (.head _), List.foldl_cons]
    exact foldlM_eq_some (fun b hb => h b (.tail _ hb)) (g s a)

theorem mapM_forall₂ {m : Type → Type} [Monad m] [LawfulMonad m] {f : α → m β} {P : α → β → Prop} : ∀ {l : List α},
    (∀ a ∈ l, ∃ b, f a = pure b ∧ P a b) → ∃ bs, l.mapM f = pure bs ∧ List.Forall₂ P l bs
  | [], _ => ⟨[], List.mapM_nil, .nil⟩
  | a :: l, h => by
    obtain ⟨b, hb, hP⟩ := h a (.head _)
    obtain ⟨bs, hbs, hPs⟩ := mapM_forall₂ (fun a' ha => h a' (.tail _ ha))
    refine ⟨b :: bs, ?_, .cons hP hPs⟩
    rw [List.mapM_cons, hb, pure_bind, hbs, pure_bind]

theorem mapM_of_forall₂ {γ : Type} {m : Type → Type} [Monad m] [LawfulMonad m] {f : β → m γ} {g : α → γ} {l : List α}
    {bs : List β} (h : List.Forall₂ (fun a b => f b = pure (g a)) l bs) : bs.mapM f = pure (l.map g) := by
  induction h with
  | nil => exact List.mapM_nil
  | cons hb _ ih => rw [List.mapM_cons, hb, pure_bind, ih, pure_bind, List.map_cons]

theorem mapM_ok {f : α → Except ε β} {l : List α} (h : ∀ a ∈ l, ∃ b, f a = .ok b) : ∃ bs, l.mapM f = .ok bs := by
  obtain ⟨bs, hbs, -⟩ := mapM_forall₂ (P := fun _ _ => True) (fun a ha => by
    obtain ⟨b, hb⟩ := h a ha
    exact ⟨b, hb, trivial⟩)
  exact ⟨bs, hbs⟩

theorem forall₂_of_mapM {f : α → Except ε β} : ∀ {l : List α} {bs : List β}, l.mapM f = .ok bs →
    List.Forall₂ (fun a b => f a = .ok b) l bs
  | [],     bs, h => by
    obtain rfl := Except.ok.inj h
    exact .nil
  | a :: l, bs, h => by
    rw [List.mapM_cons] at h
    cases ha : f a with
    | error e =>
      rw [ha] at h
      cases h
    | ok b =>
      rw [ha] at h
      cases hl : l.mapM f with
      | error e =>
        rw [hl] at h
        cases h
      | ok bs' =>
        rw [hl] at h
        obtain rfl := Except.ok.inj h
        exact .cons ha (forall₂_of_mapM hl)

theorem mapM_check {check : α → Except ε Unit} {g : α → β} {l : List α} {bs : List β} :
    l.mapM (fun a => check a >>= fun _ => pure (g a)) = .ok bs ↔ (∀ a ∈ l, check a = .ok ()) ∧ bs = l.map g := by
  constructor
  · intro h
    have hall := forall₂_of_mapM h
    clear h
    induction hall with
    | nil => exact ⟨List.forall_mem_nil _, rfl⟩
    | @cons a b l bs ha _ ih =>
      obtain ⟨hcheck, rfl⟩ := ih
      cases hc : check a with
      | error e =>
        rw [hc] at ha
        cases ha
      | ok u =>
        rw [hc] at ha
        obtain rfl := Except.ok.inj ha
        exact ⟨List.forall_mem_cons.2 ⟨hc, hcheck⟩, rfl⟩
  · rintro ⟨hcheck, rfl⟩
    exact mapM_eq_pure (fun a ha => by rw [hcheck a ha]; rfl)

theorem forall₂_of_mapM_some {f : α → Option β} : ∀ {l : List α} {bs : List β}, l.mapM f = some bs →
    List.Forall₂ (fun a b => f a = some b) l bs
  | [],     bs, h => by
    obtain rfl := Option.some.inj h
    exact .nil
  | a :: l, bs, h => by
    rw [List.mapM_cons] at h
    obtain ⟨b, hb, h⟩ := Option.bind_eq_some_iff.1 h
    obtain ⟨bs', hbs, h⟩ := Option.bind_eq_some_iff.1 h
    obtain rfl := Option.some.inj h
    exact .cons hb (forall₂_of_mapM_some hbs)

theorem map_eq_ok {f : α → β} {x : Except ε α} {b : β} (h : x.map f = .ok b) : ∃ a, x = .ok a ∧ f a = b := by
  cases x with
  | error e => cases h
  | ok a => exact ⟨a, rfl, Except.ok.inj h⟩

theorem mem_of_mapM {f : α → Except ε β} {l : List α} {bs : List β} (h : l.mapM f = .ok bs) {b : β} (hb : b ∈ bs) :
    ∃ a ∈ l, f a = .ok b := by
  have hall := forall₂_of_mapM h
  clear h
  induction hall with
  | nil => cases hb
  | @cons a b' l bs ha _ ih =>
    rcases List.mem_cons.1 hb with rfl | hb
    · exact ⟨a, .head _, ha⟩
    · obtain ⟨a', ha', hf⟩ := ih hb
      exact ⟨a', .tail _ ha', hf⟩

theorem mem_of_forall₂ {R : α → β → Prop} : ∀ {l : List α} {bs : List β}, List.Forall₂ R l bs → ∀ {b : β}, b ∈ bs →
    ∃ a ∈ l, R a b
  | _, _, .cons ha hl, b, hb => by
    rcases List.mem_cons.1 hb with rfl | hb
    · exact ⟨_, .head _, ha⟩
    · obtain ⟨a', ha', hf⟩ := mem_of_forall₂ hl hb
      exact ⟨a', .tail _ ha', hf⟩

theorem mem_of_mapM_some {f : α → Option β} {l : List α} {bs : List β} (h : l.mapM f = some bs) {b : β} (hb : b ∈ bs) :
    ∃ a ∈ l, f a = some b := mem_of_forall₂ (forall₂_of_mapM_some h) hb

end Fallible
