import Mathlib.Algebra.Order.Group.Int
import Mathlib.Order.Bounds.Basic
/-!
# Rounding — quotients that are rounded up

`roundUp n len` is the number of pieces of length `len` that it takes for `n` (`roundUp_le_iff`).  Programs compute it
as `(n + len - 1) / len` (`tdiv_eq_roundUp`).
-/
namespace Rounding

variable {n len : Int}

def roundUp (n len : Int) : Int := -(-n / len)

theorem roundUp_le_iff (hlen : 0 < len) {k : Int} : roundUp n len ≤ k ↔ n ≤ k * len := by
  unfold roundUp
  have hneg : -(-n / len) ≤ k ↔ -k ≤ -n / len := by omega
  rw [hneg, Int.le_ediv_iff_mul_le hlen, Int.neg_mul]
  omega

theorem tdiv_eq_roundUp (hn : 0 < n) (hlen : 0 < len) : (n + len - 1).tdiv len = roundUp n len := by
  apply eq_of_forall_ge_iff
  intro k
  rw [roundUp_le_iff hlen, Int.tdiv_eq_ediv_of_nonneg (by omega), ← Int.lt_add_one_iff, Int.ediv_lt_iff_lt_mul hlen,
    Int.add_mul, Int.one_mul]
  omega

/-- **The least number of pieces**, of those that are at least `m`. -/
theorem isLeast_max_roundUp (hlen : 0 < len) (m : Int) : IsLeast {k | m ≤ k ∧ n ≤ k * len} (max (roundUp n len) m) := by
  constructor
  · refine ⟨le_max_right _ _, ?_⟩
    apply (roundUp_le_iff hlen).1
    exact le_max_left _ _
  · rintro k ⟨hm, hn⟩
    exact max_le ((roundUp_le_iff hlen).2 hn) hm

theorem roundUp_mul_lt (hlen : 0 < len) : roundUp n len * len < n + len := by
  unfold roundUp
  have hdiv := Int.lt_ediv_add_one_mul_self (-n) hlen
  rw [Int.add_mul, Int.one_mul] at hdiv
  rw [Int.neg_mul]
  omega

theorem le_tdiv_of_mul_le {count part total : Int} (hcount : 0 < count) (hpart : 0 ≤ part)
    (h : part * count ≤ total) : part ≤ total.tdiv count := by
  have htotal : 0 ≤ total := (Int.mul_nonneg hpart hcount.le).trans h
  rw [Int.tdiv_eq_ediv_of_nonneg htotal]
  exact (Int.le_ediv_iff_mul_le hcount).2 h

end Rounding
