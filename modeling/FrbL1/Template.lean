import Mathlib.Data.List.Infix
import Mathlib.Logic.Relation
/-!
# Template — placeholders filled in

A placeholder is a name in a text, such as `(BEAM)`: it begins with a character of its own, and where one is, no other
is (`Names`).  `fill` goes through a text from the left and puts a value in the place of each placeholder.  A text
without placeholders stays as it is (`fill_plain`), one with a placeholder does not (`fill_ne`), and a text that is cut
at a character that no placeholder has is filled in piece by piece (`fill_append_cons`).

`Replaces` takes one placeholder, anywhere in the text.  If placeholders do not overlap and no value makes a new one
(`Separate`), the order does not matter: the replacements end, and they end with `fill` (`eq_fill`, `replaces_wf`).
-/
namespace Template

variable {κ α : Type}

structure Names (κ α : Type) where
  all      : List κ
  text     : κ → List α
  opening  : α
  complete : ∀ k, k ∈ all
  begins   : ∀ k, ∃ t, text k = opening :: t
  apart    : ∀ k k' rest, text k <+: text k' ++ rest → k = k'

theorem mem_one (k : Unit) : k ∈ [()] := .head []

def Names.one (text : List α) (opening : α) (begins : ∃ t, text = opening :: t) : Names Unit α where
  all      := [()]
  text     := fun _ => text
  opening  := opening
  complete := mem_one
  begins   := fun _ => begins
  apart    := fun _ _ _ _ => rfl

variable (N : Names κ α)

def Names.Plain (s : List α) : Prop := ∀ k, ¬ N.text k <:+: s

/-- Each text is a placeholder and the rest, or its first character and the rest. -/
theorem cases_head {P : List α → Prop} (hnil : P []) (htext : ∀ k s, P s → P (N.text k ++ s))
    (hcons : ∀ c s, (∀ k, ¬ N.text k <+: c :: s) → P s → P (c :: s)) (s : List α) : P s := by
  induction hn : s.length using Nat.strongRecOn generalizing s with
  | ind n ih =>
    cases s with
    | nil => exact hnil
    | cons c s =>
      by_cases h : ∃ k, N.text k <+: c :: s
      · obtain ⟨k, rest, hrest⟩ := h
        obtain ⟨t, ht⟩ := N.begins k
        have hlen := congrArg List.length hrest
        rw [List.length_append, ht, List.length_cons, List.length_cons] at hlen
        rw [← hrest]
        exact htext k rest (ih rest.length (by rw [← hn, List.length_cons]; omega) rest rfl)
      · exact hcons c s (not_exists.1 h) (ih s.length (by rw [← hn, List.length_cons]; omega) s rfl)

theorem cut_first {c : α} : ∀ {a b x y : List α}, c ∉ a → c ∉ b → a ++ c :: x = b ++ c :: y → a = b ∧ x = y
  | [],     [],     _, _, _,  _,  h => ⟨rfl, (List.cons.inj h).2⟩
  | [],     d :: b, _, _, _,  hb, h => absurd ((List.cons.inj h).1 ▸ .head b) hb
  | d :: a, [],     _, _, ha, _,  h => absurd ((List.cons.inj h).1 ▸ .head a) ha
  | d :: a, e :: b, x, y, ha, hb, h => by
    obtain ⟨rfl, htail⟩ := List.cons.inj h
    obtain ⟨rfl, hxy⟩ := cut_first (mt (List.mem_cons_of_mem d) ha) (mt (List.mem_cons_of_mem d) hb) htail
    exact ⟨rfl, hxy⟩

theorem cut_last {c : α} {a b x y : List α} (hx : c ∉ x) (hy : c ∉ y) (h : a ++ c :: x = b ++ c :: y) :
    a = b ∧ x = y := by
  have hrev := congrArg List.reverse h
  simp only [List.reverse_append, List.reverse_cons, List.append_assoc, List.singleton_append] at hrev
  obtain ⟨hxy, hab⟩ := cut_first (mt List.mem_reverse.1 hx) (mt List.mem_reverse.1 hy) hrev
  exact ⟨List.reverse_inj.1 hab, List.reverse_inj.1 hxy⟩

/-- What lacks a character does not reach over it. -/
theorem prefix_of_append_cons {p s b : List α} {c : α} (hc : c ∉ p) (h : p <+: s ++ c :: b) : p <+: s := by
  obtain ⟨t, ht⟩ := h
  rcases List.append_eq_append_iff.1 ht with ⟨a, rfl, -⟩ | ⟨a, rfl, ha⟩
  · exact List.prefix_append p a
  · cases a with
    | nil => rw [List.append_nil]
    | cons x a =>
      rw [List.cons_append] at ha
      exact absurd (List.mem_append_right s ((List.cons.inj ha).1 ▸ .head a)) hc

theorem opening_mem_text (k : κ) : N.opening ∈ N.text k := by
  obtain ⟨t, ht⟩ := N.begins k
  rw [ht]
  exact .head t

/-! ## One at a time -/

section
variable (v : κ → List α)

/-- A placeholder, wherever it is, is replaced by its value. -/
inductive Replaces : List α → List α → Prop
  | mk (a : List α) (k : κ) (b : List α) : Replaces (a ++ (N.text k ++ b)) (a ++ (v k ++ b))

/-- Placeholders that do not overlap, and values that have nothing of a placeholder in them. -/
structure Separate : Prop where
  once   : ∀ k t, N.text k = N.opening :: t → N.opening ∉ t
  ne_nil : ∀ k, v k ≠ []
  fresh  : ∀ k, ∀ c ∈ v k, ∀ k', c ∉ N.text k'

variable {N v}

theorem plain_iff_replaces {s : List α} : N.Plain s ↔ ∀ s', ¬ Replaces N v s s' := by
  constructor
  · rintro hs _ ⟨a, k, b⟩
    exact hs k (List.infix_append' a (N.text k) b)
  · rintro hs k ⟨a, b, rfl⟩
    rw [List.append_assoc] at hs
    exact hs _ (.mk a k b)

theorem Separate.opening_not_mem (h : Separate N v) (k : κ) : N.opening ∉ v k := fun hc =>
  h.fresh k _ hc k (opening_mem_text N k)

/-- A placeholder does not begin before another and end within it. -/
theorem Separate.prefix_of_append_text (h : Separate N v) {c : α} {s b : List α} {k k' : κ}
    (hp : N.text k' <+: c :: s ++ (N.text k ++ b)) : N.text k' <+: c :: s := by
  obtain ⟨t', ht'⟩ := N.begins k'
  obtain ⟨t, ht⟩ := N.begins k
  rw [ht, List.cons_append] at hp
  rw [ht'] at hp ⊢
  obtain ⟨hc, htail⟩ := List.cons_prefix_cons.1 hp
  exact List.cons_prefix_cons.2 ⟨hc, prefix_of_append_cons (h.once k' t' ht') htail⟩

end

/-! ## In a single pass -/

variable [DecidableEq α] (v : κ → List α)

instance (s : List α) : Decidable (N.Plain s) :=
  decidable_of_iff (∀ k ∈ N.all, ¬ N.text k <:+: s) ⟨fun h k => h k (N.complete k), fun h k _ => h k⟩

def Names.head? (s : List α) : Option κ := N.all.find? (fun k => N.text k <+: s)

/-- The first characters, of a placeholder, are passed over. -/
def fillFrom : Nat → List α → List α
  | _,        []     => []
  | skip + 1, _ :: s => fillFrom skip s
  | 0,        c :: s =>
    match N.head? (c :: s) with
    | some k => v k ++ fillFrom ((N.text k).length - 1) s
    | none   => c :: fillFrom 0 s

def fill (s : List α) : List α := fillFrom N v 0 s

theorem head?_eq_some {s : List α} {k : κ} : N.head? s = some k ↔ N.text k <+: s := by
  constructor
  · intro h
    simpa using List.find?_some h
  · intro h
    cases hf : N.head? s with
    | none => exact absurd h (by simpa using List.find?_eq_none.1 hf k (N.complete k))
    | some k' =>
      have hk' : N.text k' <+: s := by simpa using List.find?_some hf
      obtain ⟨rest, rfl⟩ := h
      rw [N.apart k' k rest hk']

theorem head?_eq_none {s : List α} : N.head? s = none ↔ ∀ k, ¬ N.text k <+: s := by
  rw [Option.eq_none_iff_forall_ne_some]
  exact forall_congr' (fun k => not_congr (head?_eq_some N))

theorem fillFrom_eq : ∀ (n : Nat) (s : List α), fillFrom N v n s = fill N v (s.drop n)
  | 0,     _      => rfl
  | n + 1, []     => by rw [List.drop_nil]; rfl
  | n + 1, _ :: s => by
    rw [List.drop_succ_cons, ← fillFrom_eq n s]
    rfl

@[simp] theorem fill_nil : fill N v [] = [] := rfl

theorem fill_text (k : κ) (s : List α) : fill N v (N.text k ++ s) = v k ++ fill N v s := by
  obtain ⟨t, ht⟩ := N.begins k
  have hhead : N.head? (N.text k ++ s) = some k := (head?_eq_some N).2 (List.prefix_append _ s)
  have hlen : (N.text k).length - 1 = t.length := by rw [ht]; rfl
  rw [ht, List.cons_append] at hhead ⊢
  unfold fill
  rw [fillFrom, hhead]
  show v k ++ fillFrom N v ((N.text k).length - 1) (t ++ s) = _
  rw [fillFrom_eq, hlen, List.drop_left]
  rfl

theorem fill_cons {c : α} {s : List α} (h : ∀ k, ¬ N.text k <+: c :: s) : fill N v (c :: s) = c :: fill N v s := by
  unfold fill
  rw [fillFrom, (head?_eq_none N).2 h]

theorem fill_cons_of_ne {c : α} (hc : c ≠ N.opening) (s : List α) : fill N v (c :: s) = c :: fill N v s :=
  fill_cons N v (fun k h => by
    obtain ⟨t, ht⟩ := N.begins k
    rw [ht] at h
    exact hc (List.cons_prefix_cons.1 h).1.symm)

theorem fill_append_of_not_mem : ∀ {a : List α}, N.opening ∉ a → ∀ s, fill N v (a ++ s) = a ++ fill N v s
  | [],     _, _ => rfl
  | c :: a, h, s => by
    obtain ⟨hc, ha⟩ := not_or.1 (mt List.mem_cons.2 h)
    rw [List.cons_append, fill_cons_of_ne N v (Ne.symm hc), fill_append_of_not_mem ha s, List.cons_append]

theorem fill_plain : ∀ {s : List α}, N.Plain s → fill N v s = s
  | [],     _ => rfl
  | c :: s, h => by
    rw [fill_cons N v (fun k hk => h k hk.isInfix),
      fill_plain (s := s) (fun k hk => h k (hk.trans (List.suffix_cons c s).isInfix))]

/-- Values without the character that begins a placeholder leave it where no placeholder is. -/
theorem count_fill_le (hv : ∀ k, N.opening ∉ v k) (s : List α) :
    (fill N v s).count N.opening ≤ s.count N.opening := by
  induction s using cases_head N with
  | hnil => exact Nat.le_refl _
  | htext k s ih =>
    rw [fill_text, List.count_append, List.count_append, List.count_eq_zero_of_not_mem (hv k)]
    omega
  | hcons c s h ih =>
    rw [fill_cons N v h, List.count_cons, List.count_cons]
    omega

theorem count_fill_lt (hv : ∀ k, N.opening ∉ v k) (s : List α) :
    ¬ N.Plain s → (fill N v s).count N.opening < s.count N.opening := by
  induction s using cases_head N with
  | hnil =>
    intro h
    refine absurd (fun k hk => ?_) h
    obtain ⟨t, ht⟩ := N.begins k
    rw [ht] at hk
    exact absurd (List.infix_nil.1 hk) (List.cons_ne_nil _ _)
  | htext k s ih =>
    intro _
    have hle := count_fill_le N v hv s
    have hpos : 0 < (N.text k).count N.opening := List.count_pos_iff.2 (opening_mem_text N k)
    rw [fill_text, List.count_append, List.count_append, List.count_eq_zero_of_not_mem (hv k)]
    omega
  | hcons c s hhead ih =>
    intro h
    have hs : ¬ N.Plain s := fun hs => h (fun k hk => by
      rcases List.infix_cons_iff.1 hk with hk | hk
      · exact hhead k hk
      · exact hs k hk)
    have hlt := ih hs
    rw [fill_cons N v hhead, List.count_cons, List.count_cons]
    omega

theorem fill_ne (hv : ∀ k, N.opening ∉ v k) {s : List α} (h : ¬ N.Plain s) : fill N v s ≠ s := fun heq => by
  have hlt := count_fill_lt N v hv s h
  rw [heq] at hlt
  exact Nat.lt_irrefl _ hlt

theorem fill_append_cons {c : α} (hc : ∀ k, c ∉ N.text k) (a b : List α) :
    fill N v (a ++ c :: b) = fill N v a ++ c :: fill N v b := by
  induction a using cases_head N with
  | hnil =>
    refine fill_cons N v (fun k hk => ?_)
    obtain ⟨t, ht⟩ := N.begins k
    rw [ht] at hk
    refine hc k ?_
    rw [ht, (List.cons_prefix_cons.1 hk).1]
    exact .head _
  | htext k s ih => rw [List.append_assoc, fill_text, fill_text, ih, List.append_assoc]
  | hcons d s h ih =>
    have hwhole : ∀ k, ¬ N.text k <+: d :: (s ++ c :: b) := fun k hk => h k (prefix_of_append_cons (hc k) hk)
    rw [List.cons_append, fill_cons N v hwhole, fill_cons N v h, ih, List.cons_append]

/-! ## Whatever the order -/

variable {N v}

theorem Separate.fill_append_text (h : Separate N v) (a : List α) (k : κ) (b : List α) :
    fill N v (a ++ (N.text k ++ b)) = fill N v a ++ (v k ++ fill N v b) := by
  induction a using cases_head N with
  | hnil => exact fill_text N v k b
  | htext k' s ih => rw [List.append_assoc, fill_text, fill_text, ih, List.append_assoc]
  | hcons c s hs ih =>
    have hwhole : ∀ k', ¬ N.text k' <+: c :: (s ++ (N.text k ++ b)) := fun k' hk' => hs k' (h.prefix_of_append_text hk')
    rw [List.cons_append, fill_cons N v hwhole, fill_cons N v hs, ih, List.cons_append]

theorem Separate.fill_append_value (h : Separate N v) (a : List α) (k : κ) (b : List α) :
    fill N v (a ++ (v k ++ b)) = fill N v a ++ (v k ++ fill N v b) := by
  have hopening := h.opening_not_mem k
  have hfresh := h.fresh k
  cases hv : v k with
  | nil => exact absurd hv (h.ne_nil k)
  | cons c u =>
    rw [hv] at hopening hfresh
    rw [List.cons_append, fill_append_cons N v (hfresh c (.head u)),
      fill_append_of_not_mem N v (mt (List.mem_cons_of_mem c) hopening), List.cons_append]

theorem fill_replaces (h : Separate N v) {s s' : List α} (hs : Replaces N v s s') : fill N v s' = fill N v s := by
  obtain ⟨a, k, b⟩ := hs
  rw [h.fill_append_text, h.fill_append_value]

theorem count_replaces (h : Separate N v) {s s' : List α} (hs : Replaces N v s s') :
    s'.count N.opening < s.count N.opening := by
  obtain ⟨a, k, b⟩ := hs
  have hpos : 0 < (N.text k).count N.opening := List.count_pos_iff.2 (opening_mem_text N k)
  simp only [List.count_append, List.count_eq_zero_of_not_mem (h.opening_not_mem k)]
  omega

/-- **The replacements end**, in whatever order. -/
theorem replaces_wf (h : Separate N v) : WellFounded (fun s' s => Replaces N v s s') :=
  Subrelation.wf (count_replaces h) (measure (List.count N.opening)).wf

/-- **They end with what is filled in.** -/
theorem eq_fill (h : Separate N v) {s s' : List α} (hrun : Relation.ReflTransGen (Replaces N v) s s')
    (hs' : N.Plain s') : s' = fill N v s := by
  induction hrun using Relation.ReflTransGen.head_induction_on with
  | refl => exact (fill_plain N v hs').symm
  | head hstep _ ih => rw [ih, fill_replaces h hstep]

theorem replaces_fill (h : Separate N v) (s : List α) :
    Relation.ReflTransGen (Replaces N v) s (fill N v s) ∧ N.Plain (fill N v s) := by
  induction s using (replaces_wf h).induction with
  | _ s ih =>
    by_cases hs : N.Plain s
    · rw [fill_plain N v hs]
      exact ⟨.refl, hs⟩
    · obtain ⟨s', hstep⟩ : ∃ s', Replaces N v s s' := by
        by_contra hno
        exact hs (plain_iff_replaces.2 (not_exists.1 hno))
      obtain ⟨hrun, hplain⟩ := ih s' hstep
      rw [fill_replaces h hstep] at hrun hplain
      exact ⟨.head hstep hrun, hplain⟩

theorem plain_fill (h : Separate N v) (s : List α) : N.Plain (fill N v s) := (replaces_fill h s).2

end Template
