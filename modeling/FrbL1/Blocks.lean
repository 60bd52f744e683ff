import FrbL1.Slices
import Mathlib.Algebra.Order.Group.Int
import Mathlib.Data.List.Nodup
import Mathlib.Data.Set.Function
import Mathlib.Data.Set.Prod
import Mathlib.Tactic.Linarith
/-!
# Blocks — partitions with an index

A family of sets over an index set partitions a set if each element is in exactly one of them.  An interval is
partitioned by blocks of equal length (`blocks`), the product of two sets by the products of their parts
(`IsPartition.prod`), and an index of two dimensions can be numbered row by row (`IsPartition.rows`), with the length
of a row as the stride and no other (`bijOn_stride_iff`).  A list without duplicates is partitioned by its slices
(`slices`), and parts that are partitioned themselves give a finer partition (`IsPartition.sigma`).
-/
namespace Blocks

open Slices (slice getElem?_slice getElem?_slice_div)

variable {ι κ α β : Type}

structure IsPartition (I : Set ι) (part : ι → Set α) (whole : Set α) : Prop where
  subset : ∀ i ∈ I, part i ⊆ whole
  unique : ∀ a ∈ whole, ∃! i, i ∈ I ∧ a ∈ part i

/-- From 0, as far as `n`. -/
def below (n : Int) : Set Int := {a | 0 ≤ a ∧ a < n}

def block (k : Int) (i : Nat) : Set Int := {a | i * k ≤ a ∧ a < (i + 1) * k}

theorem mem_block_iff {k : Int} (hk : 0 < k) {i : Nat} {a : Int} : a ∈ block k i ↔ a / k = i := by
  show _ ∧ _ ↔ _
  rw [Int.ediv_eq_iff_of_pos hk]
  constructor
  · rintro ⟨h₁, h₂⟩
    exact ⟨h₁, by linarith⟩
  · rintro ⟨h₁, h₂⟩
    exact ⟨h₁, by linarith⟩

/-- **The first `n` blocks** partition the interval from 0 to `n * k`. -/
theorem blocks {k : Int} (hk : 0 < k) (n : Nat) :
    IsPartition {i : Nat | i < n} (block k) (below (n * k)) where
  subset := fun i hi a ha => by
    have hi' : (i : Int) + 1 ≤ n := by exact_mod_cast hi
    have hle : ((i : Int) + 1) * k ≤ n * k := Int.mul_le_mul_of_nonneg_right hi' hk.le
    have h0 : 0 ≤ (i : Int) * k := Int.mul_nonneg (Int.natCast_nonneg i) hk.le
    exact ⟨h0.trans ha.1, ha.2.trans_le hle⟩
  unique := fun a ha => by
    have h0 : 0 ≤ a / k := Int.ediv_nonneg ha.1 hk.le
    have hlt : a / k < n := Int.ediv_lt_of_lt_mul hk ha.2
    refine ⟨(a / k).toNat, ⟨?_, ?_⟩, fun i hi => ?_⟩
    · show (a / k).toNat < n
      omega
    · rw [mem_block_iff hk]
      omega
    · have hi' := (mem_block_iff hk).1 hi.2
      omega

theorem IsPartition.prod {I : Set ι} {J : Set κ} {part : ι → Set α} {part' : κ → Set β} {whole : Set α} {whole' : Set β}
    (h : IsPartition I part whole) (h' : IsPartition J part' whole') :
    IsPartition (I ×ˢ J) (fun x => part x.1 ×ˢ part' x.2) (whole ×ˢ whole') where
  subset := fun x hx => Set.prod_mono (h.subset x.1 hx.1) (h'.subset x.2 hx.2)
  unique := fun a ha => by
    obtain ⟨i, hi, hiu⟩ := h.unique a.1 ha.1
    obtain ⟨j, hj, hju⟩ := h'.unique a.2 ha.2
    refine ⟨(i, j), ⟨⟨hi.1, hj.1⟩, hi.2, hj.2⟩, fun x hx => ?_⟩
    exact Prod.ext (hiu x.1 ⟨hx.1.1, hx.2.1⟩) (hju x.2 ⟨hx.1.2, hx.2.2⟩)

theorem IsPartition.congr {I : Set ι} {part part' : ι → Set α} {whole : Set α} (h : IsPartition I part whole)
    (heq : ∀ i ∈ I, part' i = part i) : IsPartition I part' whole where
  subset := fun i hi => by
    rw [heq i hi]
    exact h.subset i hi
  unique := fun a ha => by
    obtain ⟨i, hi, hiu⟩ := h.unique a ha
    refine ⟨i, ⟨hi.1, by rw [heq i hi.1]; exact hi.2⟩, fun j hj => hiu j ⟨hj.1, ?_⟩⟩
    rw [← heq j hj.1]
    exact hj.2

theorem IsPartition.reindex {I : Set ι} {J : Set κ} {part : κ → Set α} {whole : Set α} (h : IsPartition J part whole)
    {f : ι → κ} (hf : Set.BijOn f I J) : IsPartition I (fun i => part (f i)) whole where
  subset := fun i hi => h.subset (f i) (hf.mapsTo hi)
  unique := fun a ha => by
    obtain ⟨j, hj, hju⟩ := h.unique a ha
    obtain ⟨i, hi, rfl⟩ := hf.surjOn hj.1
    exact ⟨i, ⟨hi, hj.2⟩, fun i' hi' => hf.injOn hi'.1 hi (hju (f i') ⟨hf.mapsTo hi'.1, hi'.2⟩)⟩

theorem row_div {i j k : Nat} (hj : j < k) : (i * k + j) / k = i := by
  rw [Nat.mul_comm, Nat.mul_add_div (Nat.zero_lt_of_lt hj), Nat.div_eq_of_lt hj, Nat.add_zero]

theorem row_mod {i j k : Nat} (hj : j < k) : (i * k + j) % k = j := by
  rw [Nat.mul_comm, Nat.mul_add_mod, Nat.mod_eq_of_lt hj]

theorem row_lt {i j k n : Nat} (hi : i < n) (hj : j < k) : i * k + j < n * k := by
  calc i * k + j < (i + 1) * k := by
        rw [Nat.succ_mul]
        exact Nat.add_lt_add_left hj _
    _ ≤ n * k := Nat.mul_le_mul_right _ hi

theorem row_lt_iff {i j k n : Nat} (hj : j < k) : i * k + j < n * k ↔ i < n :=
  ⟨fun h => Nat.lt_of_mul_lt_mul_right ((Nat.le_add_right _ _).trans_lt h), fun h => row_lt h hj⟩

theorem bijOn_divMod {n k : Nat} (hk : 0 < k) :
    Set.BijOn (fun i => (i / k, i % k)) {i : Nat | i < n * k} ({i | i < n} ×ˢ {j | j < k}) := by
  refine ⟨fun i hi => ⟨?_, Nat.mod_lt i hk⟩, fun i _ i' _ h => ?_, fun x hx => ⟨x.1 * k + x.2, ?_, ?_⟩⟩
  · exact Nat.div_lt_of_lt_mul (by rwa [Nat.mul_comm])
  · obtain ⟨hdiv, hmod⟩ := Prod.mk.inj h
    rw [← Nat.div_add_mod i k, ← Nat.div_add_mod i' k, hdiv, hmod]
  · exact row_lt hx.1 hx.2
  · exact Prod.ext (row_div hx.2) (row_mod hx.2)

/-- **Rows that are stored with a stride**: they fill a buffer of their size exactly if the stride is their length. -/
theorem bijOn_stride_iff {n k stride : Nat} (hn : 2 ≤ n) (hk : 0 < k) :
    Set.BijOn (fun x : Nat × Nat => x.1 * stride + x.2) {x | x.1 < n ∧ x.2 < k} {e | e < n * k} ↔ stride = k := by
  constructor
  · intro h
    rcases Nat.lt_trichotomy stride k with hlt | heq | hgt
    · have h0 : ((0, stride) : Nat × Nat) ∈ {x : Nat × Nat | x.1 < n ∧ x.2 < k} := ⟨by omega, hlt⟩
      have h1 : ((1, 0) : Nat × Nat) ∈ {x : Nat × Nat | x.1 < n ∧ x.2 < k} := ⟨by omega, hk⟩
      have hsame := h.injOn h0 h1 (by simp)
      cases hsame
    · exact heq
    · have hmaps : (n - 1) * stride + (k - 1) < n * k :=
        h.mapsTo (show ((n - 1, k - 1) : Nat × Nat) ∈ {x : Nat × Nat | x.1 < n ∧ x.2 < k} from ⟨by omega, by omega⟩)
      have hle : (n - 1) * (k + 1) ≤ (n - 1) * stride := Nat.mul_le_mul_left _ hgt
      have hnk : (n - 1) * k + k = n * k := by
        rw [← Nat.succ_mul, Nat.succ_eq_add_one, Nat.sub_add_cancel (by omega)]
      rw [Nat.mul_succ] at hle
      omega
  · rintro rfl
    refine ⟨fun x hx => row_lt hx.1 hx.2, fun x hx y hy h => ?_, fun e he => ?_⟩
    · have h : x.1 * stride + x.2 = y.1 * stride + y.2 := h
      have hdiv : x.1 = y.1 := by rw [← row_div (i := x.1) hx.2, h, row_div hy.2]
      have hmod : x.2 = y.2 := by rw [← row_mod (i := x.1) hx.2, h, row_mod hy.2]
      exact Prod.ext hdiv hmod
    · refine ⟨(e / stride, e % stride), ⟨?_, Nat.mod_lt e hk⟩, Nat.div_add_mod' e stride⟩
      exact Nat.div_lt_of_lt_mul (Nat.mul_comm _ _ ▸ he)

theorem IsPartition.rows {n k : Nat} (hk : 0 < k) {part : Nat → Set α} {part' : Nat → Set β} {whole : Set α}
    {whole' : Set β} (h : IsPartition {i | i < n} part whole) (h' : IsPartition {j | j < k} part' whole') :
    IsPartition {i : Nat | i < n * k} (fun i => part (i / k) ×ˢ part' (i % k)) (whole ×ˢ whole') :=
  (h.prod h').reindex (bijOn_divMod hk)

theorem IsPartition.sigma {I : Set ι} {part : ι → Set α} {whole : Set α} (h : IsPartition I part whole) {J : Set κ}
    {sub : ι → κ → Set α} (hsub : ∀ i ∈ I, IsPartition J (sub i) (part i)) :
    IsPartition (I ×ˢ J) (fun x => sub x.1 x.2) whole where
  subset := fun x hx => ((hsub x.1 hx.1).subset x.2 hx.2).trans (h.subset x.1 hx.1)
  unique := fun a ha => by
    obtain ⟨i, ⟨hi, hai⟩, hiu⟩ := h.unique a ha
    obtain ⟨j, ⟨hj, haj⟩, hju⟩ := (hsub i hi).unique a hai
    refine ⟨(i, j), ⟨⟨hi, hj⟩, haj⟩, fun x hx => ?_⟩
    obtain ⟨⟨hx₁, hx₂⟩, hax⟩ := hx
    obtain rfl : x.1 = i := hiu x.1 ⟨hx₁, (hsub x.1 hx₁).subset x.2 hx₂ hax⟩
    exact Prod.ext rfl (hju x.2 ⟨hx₂, hax⟩)

theorem slices {l : List α} (hl : l.Nodup) {n k : Nat} (hk : 0 < k) (hlength : l.length = n * k) :
    IsPartition {i | i < n} (fun i => {a | a ∈ slice l k i}) {a | a ∈ l} where
  subset := fun _ _ _ ha => List.mem_of_mem_drop (List.mem_of_mem_take ha)
  unique := fun a ha => by
    obtain ⟨e, he, rfl⟩ := List.getElem_of_mem (show a ∈ l from ha)
    refine ⟨e / k, ⟨?_, ?_⟩, fun i hi => ?_⟩
    · exact Nat.div_lt_of_lt_mul (by rw [Nat.mul_comm, ← hlength]; exact he)
    · refine List.mem_of_getElem? (i := e % k) ?_
      rw [getElem?_slice_div l hk, List.getElem?_eq_getElem he]
    · obtain ⟨j, hj⟩ := List.mem_iff_getElem?.1 hi.2
      have hjk : j < k := lt_of_lt_of_le (List.getElem?_eq_some_iff.1 hj).1 (List.length_take_le _ _)
      rw [getElem?_slice l hjk] at hj
      obtain ⟨hlt, heq⟩ := List.getElem?_eq_some_iff.1 hj
      rw [← (hl.getElem_inj_iff).1 heq, row_div hjk]

end Blocks
