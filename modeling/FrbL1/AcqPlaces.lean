import FrbL1.FileUtils
/-!
# AcqPlaces — where one acquisition's directories are

All the calls for one acquisition create the acquisition's directory and, each for its own beams, beam directories in
it (`Places`).  What one call looks at is not touched by the others: its own beam directories have names of their own
(`beamName_injective`), the base directories it checks are none of the places, and the acquisition's directory can only
have come into being.
-/
namespace FrbL1
namespace FileUtils

open Posix (Filename Path Kind Errno Tree)
open Posix.Tree

/-! ## Names -/

theorem minus_not_mem (k n : Nat) : '-' ∉ List.replicate k '0' ++ Nat.toDigits 10 n := by
  intro h
  rcases List.mem_append.1 h with h | h
  · exact absurd (List.eq_of_mem_replicate h) (by decide)
  · exact Digits.notMem (by decide) n h

theorem dropWhile_minus (k : Nat) (l : List Char) :
    (List.replicate k '0' ++ '-' :: l).dropWhile (· ≠ '-') = '-' :: l := by
  induction k with
  | zero => simp
  | succ k ih => rw [List.replicate_succ, List.cons_append, List.dropWhile_cons_of_pos (by decide), ih]

theorem setw_injective (width : Nat) {m n : Int} (h : setw width m = setw width n) : m = n := by
  unfold setw toString at h
  by_cases hm : m < 0
  · by_cases hn : n < 0
    · simp only [hm, hn, if_true] at h
      have h' := congrArg (List.dropWhile (· ≠ '-')) h
      rw [dropWhile_minus, dropWhile_minus] at h'
      have := Digits.inj (by simpa using h')
      omega
    · simp only [hm, hn, if_true, if_false] at h
      exact absurd (by rw [← h]; simp) (minus_not_mem (width - (Nat.toDigits 10 n.natAbs).length) n.natAbs)
  · by_cases hn : n < 0
    · simp only [hm, hn, if_true, if_false] at h
      exact absurd (by rw [h]; simp) (minus_not_mem (width - (Nat.toDigits 10 m.natAbs).length) m.natAbs)
    · simp only [hm, hn, if_false] at h
      have := Digits.zeros_inj h
      omega

theorem beamName_injective {b b' : Int} (h : beamName b = beamName b') : b = b' :=
  setw_injective 4 (List.append_cancel_left h)

theorem slash_not_mem_beamName (b : Int) : '/' ∉ beamName b := by
  intro h
  rcases List.mem_append.1 h with h | h
  · exact absurd h (by decide)
  · exact not_mem_setw rfl (by decide) 4 b h

theorem next_beamName (q : Path) (b : Int) : next q (beamName b) = beamName b :: q := by
  unfold next beamName
  simp

/-! ## Paths -/

theorem components_append (f g : Filename) : components (f ++ '/' :: g) = components f ++ components g :=
  List.splitOn_append_cons_self f g

theorem components_beamdir (acqdir : Filename) (b : Int) :
    components (acqdir ++ '/' :: beamName b) = components acqdir ++ [beamName b] := by
  rw [components_append]
  exact congrArg _ (List.splitOn_eq_singleton (slash_not_mem_beamName b))

/-! ## The places of an acquisition -/

section
variable (t₀ : Tree) (acqdir : Filename) (bases : Path → Prop)

/-- Where the acquisition's directory is, or would be made. -/
def Home (Q : Path) : Prop := t₀.walk [] (stripSlashes (components acqdir)) = .ok Q

/-- Where directories may come into being: the acquisition's own, if it can be made, and those of some beams. -/
def Places (beams : Int → Prop) (q : Path) : Prop :=
  ∃ Q, Home t₀ acqdir Q ∧
    ((q = Q ∧ t₀.fault acqdir = none ∧ t₀.noCreate acqdir = none ∧ ¬ bases Q) ∨ ∃ b, beams b ∧ q = beamName b :: Q)

variable {t₀ acqdir bases}

theorem home_unique {Q Q' : Path} (h : Home t₀ acqdir Q) (h' : Home t₀ acqdir Q') : Q = Q' := by
  unfold Home at h h'
  rw [h] at h'
  exact Except.ok.inj h'

theorem places_mono {beams beams' : Int → Prop} (h : ∀ b, beams b → beams' b) (q : Path)
    (hq : Places t₀ acqdir bases beams q) : Places t₀ acqdir bases beams' q := by
  obtain ⟨Q, hQ, hq | ⟨b, hb, hq⟩⟩ := hq
  · exact ⟨Q, hQ, .inl hq⟩
  · exact ⟨Q, hQ, .inr ⟨b, h b hb, hq⟩⟩

/-- A beam's directory is a place only as that beam's. -/
theorem not_places_beam {beams : Int → Prop} {Q : Path} {b : Int} (hQ : Home t₀ acqdir Q) (hb : ¬ beams b) :
    ¬ Places t₀ acqdir bases beams (beamName b :: Q) := by
  rintro ⟨Q', hQ', ⟨he, -⟩ | ⟨b', hb', he⟩⟩
  · obtain rfl := home_unique hQ hQ'
    exact absurd (congrArg List.length he) (by simp)
  · obtain ⟨hn, -⟩ := List.cons.inj he
    exact hb (beamName_injective hn ▸ hb')

theorem not_places_in_beam {beams : Int → Prop} {Q : Path} (n : Filename) (b : Int) (hQ : Home t₀ acqdir Q) :
    ¬ Places t₀ acqdir bases beams (n :: beamName b :: Q) := by
  rintro ⟨Q', hQ', ⟨he, -⟩ | ⟨b', -, he⟩⟩
  · obtain rfl := home_unique hQ hQ'
    exact absurd (congrArg List.length he) (by simp only [List.length_cons]; omega)
  · obtain rfl := home_unique hQ hQ'
    exact absurd (congrArg List.length he) (by simp)

theorem node_eq_of_no_home {beams : Int → Prop} {t : Tree} (hno : ∀ Q, ¬ Home t₀ acqdir Q)
    (h : Grows (Places t₀ acqdir bases beams) t₀ t) : t.node = t₀.node :=
  funext (fun _ => h.node_eq (fun ⟨Q, hQ, _⟩ => hno Q hQ))

theorem walk_acqdir {beams : Int → Prop} {t : Tree} {Q : Path} (h : Grows (Places t₀ acqdir bases beams) t₀ t)
    (hQ : Home t₀ acqdir Q) (hdir : t.node Q = some .dir) : t.walk [] (components acqdir) = .ok Q := by
  obtain ⟨m, hm⟩ := stripSlashes_append (components acqdir)
  rw [hm, walk_append, h.walk _ _ _ hQ]
  exact walk_empties t Q hdir m

theorem walk_beamdir {beams : Int → Prop} {t : Tree} {Q : Path} (h : Grows (Places t₀ acqdir bases beams) t₀ t)
    (hQ : Home t₀ acqdir Q) (hdir : t.node Q = some .dir) (b : Int) :
    t.walk [] (components (acqdir ++ '/' :: beamName b)) = .ok (beamName b :: Q) := by
  rw [components_beamdir, walk_append, walk_acqdir h hQ hdir]
  simp only [walk, hdir, next_beamName]

end

end FileUtils
end FrbL1
