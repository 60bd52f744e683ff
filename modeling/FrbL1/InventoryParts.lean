import FrbL1.InventoryRuns
/-!
# InventoryParts — the parts of a beam directory

The files of a beam are cut into parts at the multiples of `nchunks_per_part`; a finished acquisition has its last cut
at its end, wherever that is.  A part begins `nchunks_overlap` files before its cut, if it is not the first.
-/
namespace FrbL1
namespace Inventory

/-! ## Cuts -/

/-- A number between the first cut and the last is between two neighbours. -/
theorem exists_between_cuts {c : Nat → Int} {k : Int} : ∀ {n : Nat}, c 0 ≤ k → k < c n →
    ∃ i < n, c i ≤ k ∧ k < c (i + 1)
  | 0,     h0, hn => absurd hn (not_lt.2 h0)
  | n + 1, h0, hn => by
    rcases lt_or_ge k (c n) with h | h
    · obtain ⟨i, hi, hik⟩ := exists_between_cuts h0 h
      exact ⟨i, Nat.lt_succ_of_lt hi, hik⟩
    · exact ⟨n, Nat.lt_succ_self n, h, hn⟩

section
variable {o : Options} {b : BeamDir} {n : Int}

/-- Where the part before `i` ends, and the part `i` begins without its overlap. -/
def BeamDir.cut (o : Options) (b : BeamDir) (n : Int) (i : Nat) : Int :=
  if (i : Int) = n ∧ !b.inProgress then b.nfiles else i * o.nchunksPerPart

def Options.before (o : Options) (i : Nat) : Int := if 0 < i then o.nchunksOverlap else 0

theorem cut_of_lt {i : Nat} (hi : (i : Int) < n) : b.cut o n i = i * o.nchunksPerPart :=
  if_neg (fun h => absurd h.1 hi.ne)

theorem cut_inProgress (hp : b.inProgress = true) (i : Nat) : b.cut o n i = i * o.nchunksPerPart :=
  if_neg (fun h => by simp [hp] at h)

theorem cut_finished (hp : b.inProgress = false) {i : Nat} (hi : (i : Int) = n) : b.cut o n i = b.nfiles :=
  if_pos ⟨hi, by simp [hp]⟩

theorem range_eq {i : Nat} (hi : (i : Int) < n) :
    b.range o n i = (b.cut o n i - o.before i, b.cut o n (i + 1)) := by
  rw [cut_of_lt hi]
  unfold BeamDir.range BeamDir.cut Options.before
  refine Prod.ext ?_ ?_
  · dsimp only
    split
    · rfl
    · rw [sub_zero]
  · have hlast : (i : Int) = n - 1 ↔ ((i + 1 : Nat) : Int) = n := by omega
    simp only [hlast, Nat.cast_add, Nat.cast_one]

theorem before_nonneg (o : Options) (i : Nat) : 0 ≤ o.before i := by
  unfold Options.before
  split
  · exact o.nonneg
  · exact le_rfl

theorem before_le (o : Options) (i : Nat) : o.before i ≤ o.nchunksOverlap := by
  unfold Options.before
  split
  · exact le_rfl
  · exact o.nonneg

/-! ## How many parts -/

theorem nparts_inProgress (hp : b.inProgress = true) (hn : b.nparts exactly o = .ok n) :
    n = b.nfiles / o.nchunksPerPart := by
  unfold BeamDir.nparts at hn
  rw [if_pos hp] at hn
  exact (Except.ok.inj hn).symm

theorem nparts_finished (hp : b.inProgress = false) (hn : b.nparts exactly o = .ok n) :
    1 ≤ n ∧ (2 ≤ n → 2 * (n * o.nchunksPerPart) ≤ 2 * b.nfiles + o.nchunksPerPart) ∧
      2 * b.nfiles < (2 * n + 1) * o.nchunksPerPart := by
  have hpos : (0 : ℚ) < o.nchunksPerPart := by exact_mod_cast nchunksPerPart_pos (o := o)
  unfold BeamDir.nparts at hn
  rw [if_neg (by simp [hp])] at hn
  have hmax : max ⌊((b.nfiles : ℚ) / o.nchunksPerPart + 1 / 2)⌋ 1 = n := Except.ok.inj hn
  have hle := Int.floor_le ((b.nfiles : ℚ) / o.nchunksPerPart + 1 / 2)
  have hlt := Int.lt_floor_add_one ((b.nfiles : ℚ) / o.nchunksPerPart + 1 / 2)
  generalize ⌊((b.nfiles : ℚ) / o.nchunksPerPart + 1 / 2)⌋ = q at hmax hle hlt
  refine ⟨by omega, fun h2 => ?_, ?_⟩
  · obtain rfl : q = n := by omega
    have hq : (q : ℚ) - 1 / 2 ≤ b.nfiles / o.nchunksPerPart := by linarith
    have hmul := (le_div_iff₀ hpos).1 hq
    have hcast : (2 : ℚ) * (q * o.nchunksPerPart) ≤ 2 * b.nfiles + o.nchunksPerPart := by linarith
    exact_mod_cast hcast
  · have hqn : (q : ℚ) ≤ n := by
      have hqn : q ≤ n := by omega
      exact_mod_cast hqn
    have hq : (b.nfiles : ℚ) / o.nchunksPerPart < n + 1 / 2 := by linarith
    have hmul := (div_lt_iff₀ hpos).1 hq
    have hcast : (2 : ℚ) * b.nfiles < (2 * n + 1) * o.nchunksPerPart := by linarith
    exact_mod_cast hcast

theorem nparts_nonneg (hn : b.nparts exactly o = .ok n) : 0 ≤ n := by
  cases hp : b.inProgress with
  | true =>
    rw [nparts_inProgress hp hn]
    exact Int.ediv_nonneg (Int.natCast_nonneg _) nchunksPerPart_pos.le
  | false => exact zero_le_one.trans (nparts_finished hp hn).1

/-! ## The parts -/

theorem cut_zero (hn : b.nparts exactly o = .ok n) : b.cut o n 0 = 0 := by
  unfold BeamDir.cut
  split
  · rename_i h
    have hone := (nparts_finished (by simpa using h.2) hn).1
    have hzero : (0 : Int) = n := h.1
    omega
  · exact zero_mul _

/-- Before the last part of a finished acquisition, a part is as long as it should be, but for the overlap. -/
theorem cut_succ_of_lt {i : Nat} (hi : (i : Int) + 1 < n) : b.cut o n (i + 1) = b.cut o n i + o.nchunksPerPart := by
  rw [cut_of_lt (n := n) (by push_cast; exact hi), cut_of_lt (by omega)]
  push_cast
  ring

theorem cut_last_inProgress (hp : b.inProgress = true) (hn : b.nparts exactly o = .ok n) :
    b.cut o n n.toNat = b.nfiles / o.nchunksPerPart * o.nchunksPerPart := by
  rw [cut_inProgress hp, Int.toNat_of_nonneg (nparts_nonneg hn), nparts_inProgress hp hn]

theorem cut_last_finished (hp : b.inProgress = false) (hn : b.nparts exactly o = .ok n) :
    b.cut o n n.toNat = b.nfiles :=
  cut_finished hp (Int.toNat_of_nonneg (nparts_nonneg hn))

theorem cut_lt_succ (hfiles : 0 < b.nfiles) (hn : b.nparts exactly o = .ok n) {i : Nat} (hi : (i : Int) < n) :
    b.cut o n i < b.cut o n (i + 1) := by
  have hpos := nchunksPerPart_pos (o := o)
  cases hp : b.inProgress with
  | true =>
    rw [cut_inProgress hp, cut_inProgress hp]
    push_cast
    linarith
  | false =>
    rcases lt_or_eq_of_le (show (i : Int) + 1 ≤ n from hi) with hlt | hlast
    · rw [cut_succ_of_lt hlt]
      exact lt_add_of_pos_right _ hpos
    · obtain ⟨-, htwo, -⟩ := nparts_finished hp hn
      rw [cut_of_lt hi, cut_finished hp (by push_cast; exact hlast)]
      cases i with
      | zero =>
        rw [Nat.cast_zero, zero_mul]
        exact_mod_cast hfiles
      | succ j =>
        have hmul := htwo (by omega)
        rw [← hlast] at hmul
        push_cast at hmul ⊢
        linarith

theorem cut_le_nfiles (hn : b.nparts exactly o = .ok n) {i : Nat} (hi : (i : Int) < n) :
    b.cut o n (i + 1) ≤ b.nfiles := by
  have hbounds := (range_bounds hn (i := i) (by omega)).2
  rw [range_eq hi] at hbounds
  exact hbounds

/-- The last part of a finished acquisition is up to half a part longer than it should be. -/
theorem cut_succ_le_finished (hp : b.inProgress = false) (hn : b.nparts exactly o = .ok n) {i : Nat}
    (hi : (i : Int) < n) : 2 * (b.cut o n (i + 1) - b.cut o n i) ≤ 3 * o.nchunksPerPart := by
  have hpos := nchunksPerPart_pos (o := o)
  rcases lt_or_eq_of_le (show (i : Int) + 1 ≤ n from hi) with hlt | hlast
  · rw [cut_succ_of_lt hlt]
    linarith
  · obtain ⟨-, -, hless⟩ := nparts_finished hp hn
    rw [cut_of_lt hi, cut_finished hp (by push_cast; exact hlast)]
    rw [← hlast] at hless
    linarith

/-- The parts of a beam directory, as the writer of the json files cuts it. -/
structure BeamDir.Parts (o : Options) (b : BeamDir) (n : Int) : Prop where
  bounds  : ∀ i : Nat, (i : Int) < n →
              0 ≤ (b.range o n i).1 ∧ (b.range o n i).1 < (b.range o n i).2 ∧ (b.range o n i).2 ≤ b.nfiles
  overlap : ∀ i : Nat, (i : Int) + 1 < n → (b.range o n (i + 1)).1 = (b.range o n i).2 - o.nchunksOverlap
  covers  : ∀ k : Int, (∃ i : Nat, (i : Int) < n ∧ (b.range o n i).1 ≤ k ∧ k < (b.range o n i).2) ↔
              0 ≤ k ∧ k < if b.inProgress then b.nfiles / o.nchunksPerPart * o.nchunksPerPart else (b.nfiles : Int)
  short   : b.inProgress = false → ∀ i : Nat, (i : Int) < n →
              2 * ((b.range o n i).2 - (b.range o n i).1) ≤ 3 * o.nchunksPerPart + 2 * o.nchunksOverlap
  stays   : b.inProgress = true → ∀ b' : BeamDir, b'.inProgress = true → b.nfiles ≤ b'.nfiles →
              ∃ n', b'.nparts exactly o = .ok n' ∧ ∀ i : Nat, (i : Int) < n → (i : Int) < n' ∧
                b'.range o n' i = b.range o n i

theorem range_fst_nonneg (hn : b.nparts exactly o = .ok n) {i : Nat} (hi : (i : Int) < n) : 0 ≤ (b.range o n i).1 :=
  (range_bounds hn (by omega)).1

theorem covers_iff (hfiles : 0 < b.nfiles) (hn : b.nparts exactly o = .ok n) (k : Int) :
    (∃ i : Nat, (i : Int) < n ∧ (b.range o n i).1 ≤ k ∧ k < (b.range o n i).2) ↔ 0 ≤ k ∧ k < b.cut o n n.toNat := by
  constructor
  · rintro ⟨i, hi, h1, h2⟩
    refine ⟨(range_fst_nonneg hn hi).trans h1, ?_⟩
    rw [range_eq hi] at h2
    have hmono : ∀ j, i + 1 + j ≤ n.toNat → b.cut o n (i + 1) ≤ b.cut o n (i + 1 + j) := by
      intro j
      induction j with
      | zero => exact fun _ => le_rfl
      | succ j ih =>
        intro hj
        exact (ih (by omega)).trans (cut_lt_succ hfiles hn (i := i + 1 + j) (by omega)).le
    have hlast := hmono (n.toNat - (i + 1)) (by omega)
    rw [Nat.add_sub_cancel' (show i + 1 ≤ n.toNat by omega)] at hlast
    exact h2.trans_le hlast
  · rintro ⟨h0, hk⟩
    rw [← cut_zero hn] at h0
    obtain ⟨i, hi, h1, h2⟩ := exists_between_cuts h0 hk
    refine ⟨i, by omega, ?_⟩
    rw [range_eq (by omega)]
    exact ⟨(sub_le_self _ (before_nonneg o i)).trans h1, h2⟩

theorem range_later {b' : BeamDir} {n' : Int} (hp : b.inProgress = true) (hp' : b'.inProgress = true)
    (hle : b.nfiles ≤ b'.nfiles) (hn : b.nparts exactly o = .ok n) (hn' : b'.nparts exactly o = .ok n') {i : Nat}
    (hi : (i : Int) < n) : (i : Int) < n' ∧ b'.range o n' i = b.range o n i := by
  have hnn : n ≤ n' := by
    rw [nparts_inProgress hp hn, nparts_inProgress hp' hn']
    exact Int.ediv_le_ediv nchunksPerPart_pos (by exact_mod_cast hle)
  have hi' : (i : Int) < n' := hi.trans_le hnn
  refine ⟨hi', ?_⟩
  rw [range_eq hi, range_eq hi', cut_inProgress hp, cut_inProgress hp, cut_inProgress hp', cut_inProgress hp']

/-- **The parts of a beam directory with files.** -/
theorem parts_of_files (o : Options) (b : BeamDir) (hfiles : 0 < b.nfiles) :
    ∃ n, b.nparts exactly o = .ok n ∧ b.Parts o n := by
  obtain ⟨n, hn⟩ := nparts_exactly_ok o b
  refine ⟨n, hn, ?_, ?_, ?_, ?_, ?_⟩
  · intro i hi
    refine ⟨range_fst_nonneg hn hi, ?_⟩
    rw [range_eq hi]
    exact ⟨(sub_le_self _ (before_nonneg o i)).trans_lt (cut_lt_succ hfiles hn hi), cut_le_nfiles hn hi⟩
  · intro i hi
    rw [range_eq (i := i + 1) (by push_cast; exact hi), range_eq (i := i) (by omega)]
    rfl
  · intro k
    rw [covers_iff hfiles hn k]
    cases hp : b.inProgress with
    | true => rw [cut_last_inProgress hp hn, if_pos rfl]
    | false => rw [cut_last_finished hp hn, if_neg (by decide)]
  · intro hp i hi
    rw [range_eq hi]
    have hcut := cut_succ_le_finished hp hn hi
    have hbefore := before_le o i
    dsimp only
    linarith
  · intro hp b' hp' hle
    obtain ⟨n', hn'⟩ := nparts_exactly_ok o b'
    exact ⟨n', hn', fun i hi => range_later hp hp' hle hn hn' hi⟩

end

def fiveFiles : BeamDir := ⟨7, [], [], List.replicate 5 [], false, 0⟩

theorem parts_of_fiveFiles : ∃ n, fiveFiles.nparts exactly ⟨.ssd, 2, 1, by decide, by decide⟩ = .ok n ∧
    fiveFiles.Parts ⟨.ssd, 2, 1, by decide, by decide⟩ n :=
  parts_of_files ⟨.ssd, 2, 1, by decide, by decide⟩ fiveFiles (by decide)

end Inventory
end FrbL1
