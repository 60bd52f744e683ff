import Mathlib.Data.List.Basic
/-!
# Slices — a list in slices of equal length

The slice `i` of length `k` of a list.  The first `n` slices make up the first `n * k` elements (`flatMap_slice`), and
the element `j` of the slice `i` is the element `i * k + j` of the list (`getElem?_slice`).  There are `k` indices in
each slice (`countP_div_range`).
-/
namespace Slices

variable {α : Type}

def slice (l : List α) (k i : Nat) : List α := (l.drop (i * k)).take k

theorem slice_sublist (l : List α) (k i : Nat) : (slice l k i).Sublist l :=
  (List.take_sublist k _).trans (List.drop_sublist (i * k) l)

theorem flatMap_slice (l : List α) (k : Nat) : ∀ n, (List.range n).flatMap (slice l k) = l.take (n * k)
  | 0     => by simp
  | n + 1 => by
    rw [List.range_succ, List.flatMap_append, flatMap_slice l k n, Nat.succ_mul, List.take_add]
    simp [slice]

theorem flatMap_slice_eq {l : List α} {n k : Nat} (h : l.length = n * k) : (List.range n).flatMap (slice l k) = l := by
  rw [flatMap_slice, ← h, List.take_length]

theorem getElem?_slice (l : List α) {i j k : Nat} (hj : j < k) : (slice l k i)[j]? = l[i * k + j]? := by
  unfold slice
  rw [List.getElem?_take_of_lt hj, List.getElem?_drop]

theorem getElem?_slice_div (l : List α) {i k : Nat} (hk : 0 < k) : (slice l k (i / k))[i % k]? = l[i]? := by
  rw [getElem?_slice l (Nat.mod_lt i hk), Nat.mul_comm, Nat.div_add_mod]

theorem length_slice {l : List α} {n k i : Nat} (h : l.length = n * k) (hi : i < n) : (slice l k i).length = k := by
  have hle : i * k + k ≤ n * k := by
    rw [← Nat.succ_mul]
    exact Nat.mul_le_mul_right _ hi
  unfold slice
  rw [List.length_take, List.length_drop]
  omega

theorem countP_div_range (k j : Nat) : ∀ n, (List.range (n * k)).countP (fun i => decide (i / k = j)) = if j < n then k else 0
  | 0     => by simp
  | n + 1 => by
    have hlast : ∀ i ∈ List.range k, (n * k + i) / k = n := fun i hi => by
      have hi := List.mem_range.1 hi
      rw [Nat.mul_comm, Nat.mul_add_div (Nat.zero_lt_of_lt hi), Nat.div_eq_of_lt hi, Nat.add_zero]
    have hcount : ((List.range k).map (n * k + ·)).countP (fun i => decide (i / k = j)) = if n = j then k else 0 := by
      rw [List.countP_map]
      split
      · rename_i hnj
        rw [List.countP_eq_length.2 (fun i hi => ?_), List.length_range]
        exact decide_eq_true ((hlast i hi).trans hnj)
      · rename_i hnj
        apply List.countP_eq_zero.2
        intro i hi hdec
        exact hnj ((hlast i hi).symm.trans (of_decide_eq_true hdec))
    rw [Nat.succ_mul, List.range_add, List.countP_append, countP_div_range k j n, hcount]
    split <;> split <;> split <;> omega

end Slices
