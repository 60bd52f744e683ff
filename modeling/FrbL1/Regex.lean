import Mathlib.Data.List.Basic
/-!
# Regex — patterns of greedy groups

A pattern is a list of characters and of groups, each of which takes characters of its class, as many as possible.  `all`
are the ways to match a prefix of a text, in the order in which a backtracking matcher tries them: a group is given back
one character after the other, the last group first.  The first way is the match.

What a group takes is decided by what the rest of the pattern can match: it takes at least what leaves something to match
(`firstMatch_group`), and no more than it can (`firstMatch_group_cons`).
-/
namespace Regex

inductive Piece (Name : Type)
  | char (c : Char)
  /-- `(?P<name>[..]*)`. -/
  | group (name : Name) (p : Char → Bool)

variable {Name : Type}

/-- What a group can take, the longest first, and what is left. -/
def splits (p : Char → Bool) : List Char → List (List Char × List Char)
  | []     => [([], [])]
  | c :: s => (if p c then (splits p s).map (fun x => (c :: x.1, x.2)) else []) ++ [([], c :: s)]

/-- The groups of all matches of a pattern at the beginning of a text. -/
def all : List (Piece Name) → List Char → List (List (Name × List Char))
  | [], _                  => [[]]
  | .char _ :: _, []       => []
  | .char c :: ps, d :: s  => if d = c then all ps s else []
  | .group name p :: ps, s => (splits p s).flatMap (fun x => (all ps x.2).map ((name, x.1) :: ·))

/-- `re.match`: the first of them. -/
def firstMatch (ps : List (Piece Name)) (s : List Char) : Option (List (Name × List Char)) := (all ps s).head?

variable {ps : List (Piece Name)} {name : Name} {p : Char → Bool} {m : List (Name × List Char)}

/-! ## Characters -/

theorem firstMatch_char (c : Char) (ps : List (Piece Name)) (s : List Char) :
    firstMatch (.char c :: ps) (c :: s) = firstMatch ps s := by
  rw [firstMatch, all, if_pos rfl]
  rfl

theorem char_of_firstMatch {c : Char} {s : List Char} (h : firstMatch (.char c :: ps) s = some m) :
    ∃ t, s = c :: t ∧ firstMatch ps t = some m := by
  cases s with
  | nil => cases h
  | cons d t =>
    rw [firstMatch, all] at h
    split at h
    · rename_i hd
      exact ⟨t, by rw [hd], h⟩
    · cases h

/-! ## Groups -/

theorem mem_splits : ∀ {s : List Char} {x : List Char × List Char}, x ∈ splits p s →
    s = x.1 ++ x.2 ∧ ∀ c ∈ x.1, p c = true
  | [], x, h => by
    obtain rfl := List.mem_singleton.1 h
    exact ⟨rfl, fun c hc => nomatch hc⟩
  | c :: s, x, h => by
    rcases List.mem_append.1 h with h | h
    · split at h
      · rename_i hc
        obtain ⟨y, hy, rfl⟩ := List.mem_map.1 h
        obtain ⟨hs, hall⟩ := mem_splits hy
        exact ⟨congrArg (c :: ·) hs, List.forall_mem_cons.2 ⟨hc, hall⟩⟩
      · cases h
    · obtain rfl := List.mem_singleton.1 h
      exact ⟨rfl, fun c hc => nomatch hc⟩

/-- **What can be taken is tried**, behind all that takes more. -/
theorem splits_append : ∀ {t r : List Char}, (∀ c ∈ t, p c = true) → ∃ longer shorter,
    splits p (t ++ r) = longer ++ (t, r) :: shorter ∧
      ∀ x ∈ longer, ∃ u, x.1 = t ++ u ∧ r = u ++ x.2 ∧ ∀ c ∈ u, p c = true
  | [], [], _ => ⟨[], [], rfl, fun x hx => nomatch hx⟩
  | [], c :: r, _ => by
    refine ⟨_, [], rfl, fun x hx => ?_⟩
    have hmem : x ∈ splits p (c :: r) := List.mem_append_left _ hx
    obtain ⟨hs, hall⟩ := mem_splits hmem
    exact ⟨x.1, rfl, hs, hall⟩
  | c :: t, r, ht => by
    obtain ⟨hc, ht⟩ := List.forall_mem_cons.1 ht
    obtain ⟨longer, shorter, hsplits, hlonger⟩ := splits_append (r := r) ht
    refine ⟨longer.map (fun x => (c :: x.1, x.2)), shorter.map (fun x => (c :: x.1, x.2)) ++ [([], c :: (t ++ r))], ?_, ?_⟩
    · rw [List.cons_append, splits, if_pos hc, hsplits]
      simp only [List.map_append, List.map_cons, List.append_assoc, List.cons_append]
    · intro x hx
      obtain ⟨y, hy, rfl⟩ := List.mem_map.1 hx
      obtain ⟨u, hu, hr, hall⟩ := hlonger y hy
      exact ⟨u, congrArg (c :: ·) hu, hr, hall⟩

theorem head?_flatMap {α β : Type} {f : α → List β} {b : β} : ∀ {l : List α}, (l.flatMap f).head? = some b →
    ∃ a ∈ l, (f a).head? = some b
  | [], h => nomatch h
  | a :: l, h => by
    rw [List.flatMap_cons, List.head?_append] at h
    cases ha : (f a).head? with
    | some b' =>
      rw [ha] at h
      exact ⟨a, .head _, by rw [ha]; exact h⟩
    | none =>
      rw [ha] at h
      obtain ⟨a', ha', hb⟩ := head?_flatMap h
      exact ⟨a', .tail _ ha', hb⟩

theorem head?_map_cons {t r : List Char} {m : List (Name × List Char)}
    (h : ((all ps r).map ((name, t) :: ·)).head? = some m) : ∃ m', firstMatch ps r = some m' ∧ m = (name, t) :: m' := by
  rw [List.head?_map] at h
  obtain ⟨m', hm', rfl⟩ := Option.map_eq_some_iff.1 h
  exact ⟨m', hm', rfl⟩

/-- What a group takes is of its class, and the rest of the pattern matches what it leaves. -/
theorem group_of_firstMatch {s : List Char} (h : firstMatch (.group name p :: ps) s = some m) :
    ∃ t r m', s = t ++ r ∧ (∀ c ∈ t, p c = true) ∧ firstMatch ps r = some m' ∧ m = (name, t) :: m' := by
  obtain ⟨x, hx, hhead⟩ := head?_flatMap h
  obtain ⟨hs, hall⟩ := mem_splits hx
  obtain ⟨m', hm', rfl⟩ := head?_map_cons hhead
  exact ⟨x.1, x.2, m', hs, hall, hm', rfl⟩

theorem firstMatch_group (name : Name) {t r : List Char} (ht : ∀ c ∈ t, p c = true) (h : firstMatch ps r = some m) :
    ∃ u r' m', r = u ++ r' ∧ (∀ c ∈ u, p c = true) ∧ firstMatch ps r' = some m' ∧
      firstMatch (.group name p :: ps) (t ++ r) = some ((name, t ++ u) :: m') := by
  obtain ⟨longer, shorter, hsplits, hlonger⟩ := splits_append (r := r) ht
  have hall : firstMatch (.group name p :: ps) (t ++ r) =
      ((longer.flatMap (fun x => (all ps x.2).map ((name, x.1) :: ·))).head?).or (some ((name, t) :: m)) := by
    rw [firstMatch, all, hsplits, List.flatMap_append, List.flatMap_cons, List.head?_append, List.head?_append,
      List.head?_map, show (all ps r).head? = some m from h]
    rfl
  cases hhead : (longer.flatMap (fun x => (all ps x.2).map ((name, x.1) :: ·))).head? with
  | none =>
    rw [hhead] at hall
    exact ⟨[], r, m, rfl, fun c hc => (nomatch hc), h, by rw [List.append_nil]; exact hall⟩
  | some m₀ =>
    rw [hhead] at hall
    obtain ⟨x, hx, hm₀⟩ := head?_flatMap hhead
    obtain ⟨u, hu, hr, hclass⟩ := hlonger x hx
    obtain ⟨m', hm', rfl⟩ := head?_map_cons hm₀
    rw [hu] at hall
    exact ⟨u, x.2, m', hr, hclass, hm', hall⟩

/-- **A group takes all that it can**, up to a character that is not of its class. -/
theorem firstMatch_group_cons {t r : List Char} {c : Char} (ht : ∀ c ∈ t, p c = true) (hc : p c = false)
    (h : firstMatch ps (c :: r) = some m) :
    firstMatch (.group name p :: ps) (t ++ c :: r) = some ((name, t) :: m) := by
  obtain ⟨u, r', m', hr, hu, hm', hmatch⟩ := firstMatch_group name ht h
  cases u with
  | nil =>
    obtain rfl : c :: r = r' := hr
    rw [hm'] at h
    rw [hmatch, List.append_nil, Option.some.inj h]
  | cons d u =>
    rw [← (List.cons.inj hr).1] at hu
    rw [hu c (.head _)] at hc
    cases hc

theorem firstMatch_group_end {t : List Char} (ht : ∀ c ∈ t, p c = true) (h : firstMatch ps [] = some m) :
    firstMatch (.group name p :: ps) t = some ((name, t) :: m) := by
  obtain ⟨u, r', m', hr, -, hm', hmatch⟩ := firstMatch_group name ht h
  obtain ⟨rfl, rfl⟩ := List.append_eq_nil_iff.1 hr.symm
  rw [hm'] at h
  rw [List.append_nil] at hmatch
  rw [hmatch, Option.some.inj h]

end Regex
