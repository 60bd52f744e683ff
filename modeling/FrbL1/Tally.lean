import Mathlib.Algebra.BigOperators.Group.List.Basic
import Mathlib.Data.List.Dedup
/-!
# Tally — dictionaries of amounts

A dictionary is the list of its items, in the order in which their keys were first set.  The amount of a key in a list
of items is what the items with this key sum up to; a dictionary that is added up item by item has these amounts
(`get_addItems`).  Columns that have each key once have the total between them (`sum_amount`).
-/
namespace Tally

variable {κ ν : Type} [DecidableEq κ]

/-- `d.get(k)` -/
def get : List (κ × ν) → κ → Option ν
  | [],            _ => none
  | (k', v') :: d, k => if k = k' then some v' else get d k

@[simp] theorem get_nil (k : κ) : get ([] : List (κ × ν)) k = none := rfl

/-- `d[k] = v` -/
def set : List (κ × ν) → κ → ν → List (κ × ν)
  | [],            k, v => [(k, v)]
  | (k', v') :: d, k, v => if k' = k then (k, v) :: d else (k', v') :: set d k v

theorem get_set : ∀ (d : List (κ × ν)) (k k' : κ) (v : ν), get (set d k v) k' = if k' = k then some v else get d k'
  | [],          k, k', v => rfl
  | (j, w) :: d, k, k', v => by
    unfold set
    by_cases hj : j = k
    · subst hj
      rw [if_pos rfl, get, get]
      split <;> rfl
    · rw [if_neg hj, get, get_set d, get]
      by_cases hk : k' = j
      · subst hk
        simp [hj]
      · simp [hk]

theorem mem_keys_set : ∀ {d : List (κ × ν)} {k k' : κ} {v : ν},
    k' ∈ (set d k v).map (·.1) ↔ k' = k ∨ k' ∈ d.map (·.1)
  | [],          k, k', v => by simp [set]
  | (j, w) :: d, k, k', v => by
    unfold set
    by_cases hj : j = k
    · subst hj
      simp
    · rw [if_neg hj, List.map_cons, List.mem_cons, mem_keys_set, List.map_cons, List.mem_cons]
      exact or_left_comm

theorem nodup_set : ∀ {d : List (κ × ν)} {k : κ} {v : ν}, (d.map (·.1)).Nodup → ((set d k v).map (·.1)).Nodup
  | [],          k, v, _ => by simp [set]
  | (j, w) :: d, k, v, h => by
    obtain ⟨hj, hd⟩ := List.nodup_cons.1 h
    unfold set
    by_cases hjk : j = k
    · subst hjk
      rw [if_pos rfl]
      exact h
    · rw [if_neg hjk, List.map_cons]
      refine List.nodup_cons.2 ⟨fun hmem => ?_, nodup_set hd⟩
      obtain rfl | hmem := mem_keys_set.1 hmem
      · exact hjk rfl
      · exact hj hmem

/-! ## Amounts -/

variable [AddCommMonoid ν]

def amount (items : List (κ × ν)) (k : κ) : ν := (items.map (fun x => if x.1 = k then x.2 else 0)).sum

def total (items : List (κ × ν)) : ν := (items.map (·.2)).sum

@[simp] theorem amount_nil (k : κ) : amount ([] : List (κ × ν)) k = 0 := rfl

@[simp] theorem amount_cons (x : κ × ν) (items : List (κ × ν)) (k : κ) :
    amount (x :: items) k = (if x.1 = k then x.2 else 0) + amount items k := by simp [amount]

theorem amount_of_notMem {items : List (κ × ν)} {k : κ} (h : k ∉ items.map (·.1)) : amount items k = 0 := by
  induction items with
  | nil => rfl
  | cons x items ih =>
    obtain ⟨hx, hitems⟩ := not_or.1 (mt List.mem_cons.2 h)
    rw [amount_cons, if_neg (Ne.symm hx), ih hitems, zero_add]

theorem getD_get {d : List (κ × ν)} (h : (d.map (·.1)).Nodup) (k : κ) : (get d k).getD 0 = amount d k := by
  induction d with
  | nil => rfl
  | cons x d ih =>
    obtain ⟨hx, hd⟩ := List.nodup_cons.1 h
    rw [get, amount_cons]
    by_cases hk : k = x.1
    · subst hk
      rw [if_pos rfl, if_pos rfl, amount_of_notMem hx, add_zero, Option.getD_some]
    · rw [if_neg hk, if_neg (Ne.symm hk), ih hd, zero_add]

theorem sum_single {cols : List κ} (hcols : cols.Nodup) {k : κ} (hk : k ∈ cols) (v : ν) :
    (cols.map (fun c => if k = c then v else 0)).sum = v := by
  induction cols with
  | nil => cases hk
  | cons c cols ih =>
    obtain ⟨hc, hnd⟩ := List.nodup_cons.1 hcols
    rw [List.map_cons, List.sum_cons]
    by_cases hkc : k = c
    · subst hkc
      have hrest : cols.map (fun c => if k = c then v else 0) = cols.map (fun _ => 0) :=
        List.map_congr_left (fun c' hc' => if_neg (fun heq => hc (by rwa [heq])))
      rw [if_pos rfl, hrest, List.sum_map_zero, add_zero]
    · rw [if_neg hkc, zero_add, ih hnd ((List.mem_cons.1 hk).resolve_left hkc)]

theorem sum_amount {cols : List κ} (hcols : cols.Nodup) {items : List (κ × ν)} (h : ∀ x ∈ items, x.1 ∈ cols) :
    (cols.map (amount items)).sum = total items := by
  induction items with
  | nil => exact List.sum_map_zero
  | cons x items ih =>
    have hsplit : cols.map (amount (x :: items)) = cols.map (fun c => (if x.1 = c then x.2 else 0) + amount items c) :=
      List.map_congr_left (fun c _ => amount_cons x items c)
    rw [hsplit, List.sum_map_add, sum_single hcols (h x (.head _)), ih (fun y hy => h y (.tail _ hy))]
    simp [total]

/-! ## Adding up -/

/-- `if not k in d: d[k] = v else: d[k] += v` -/
def addItem (d : List (κ × ν)) (x : κ × ν) : List (κ × ν) :=
  match get d x.1 with
  | none   => set d x.1 x.2
  | some v => set d x.1 (v + x.2)

theorem mem_keys_addItem {d : List (κ × ν)} {x : κ × ν} {k : κ} :
    k ∈ (addItem d x).map (·.1) ↔ k = x.1 ∨ k ∈ d.map (·.1) := by
  unfold addItem
  split <;> exact mem_keys_set

theorem nodup_addItem {d : List (κ × ν)} {x : κ × ν} (h : (d.map (·.1)).Nodup) : ((addItem d x).map (·.1)).Nodup := by
  unfold addItem
  split <;> exact nodup_set h

theorem get_addItem (d : List (κ × ν)) (x : κ × ν) (k : κ) :
    (get (addItem d x) k).getD 0 = (get d k).getD 0 + if x.1 = k then x.2 else 0 := by
  unfold addItem
  split
  · rename_i hnone
    rw [get_set]
    by_cases hk : k = x.1
    · subst hk
      simp [hnone]
    · simp [hk, Ne.symm hk]
  · rename_i v hsome
    rw [get_set]
    by_cases hk : k = x.1
    · subst hk
      simp [hsome]
    · simp [hk, Ne.symm hk]

theorem mem_keys_addItems {items : List (κ × ν)} : ∀ {d : List (κ × ν)} {k : κ},
    k ∈ (items.foldl addItem d).map (·.1) ↔ k ∈ items.map (·.1) ∨ k ∈ d.map (·.1) := by
  induction items with
  | nil => simp
  | cons x items ih =>
    intro d k
    rw [List.foldl_cons, ih, mem_keys_addItem, List.map_cons, List.mem_cons]
    tauto

theorem nodup_addItems {items : List (κ × ν)} : ∀ {d : List (κ × ν)}, (d.map (·.1)).Nodup →
    ((items.foldl addItem d).map (·.1)).Nodup := by
  induction items with
  | nil => exact fun h => h
  | cons x items ih => exact fun h => ih (nodup_addItem h)

theorem get_addItems (items : List (κ × ν)) : ∀ (d : List (κ × ν)) (k : κ),
    (get (items.foldl addItem d) k).getD 0 = (get d k).getD 0 + amount items k := by
  induction items with
  | nil => simp
  | cons x items ih =>
    intro d k
    rw [List.foldl_cons, ih, get_addItem, amount_cons, add_assoc]

/-! ## Other keys, other values -/

theorem amount_map_key {κ' : Type} [DecidableEq κ'] {f : κ → κ'} (hf : Function.Injective f) (items : List (κ × ν))
    (k : κ) : amount (items.map (fun x => (f x.1, x.2))) (f k) = amount items k := by
  induction items with
  | nil => rfl
  | cons x items ih => simp only [List.map_cons, amount_cons, hf.eq_iff, ih]

theorem amount_map_value {ν' : Type} [AddCommMonoid ν'] (f : ν →+ ν') (items : List (κ × ν)) (k : κ) :
    amount (items.map (fun x => (x.1, f x.2))) k = f (amount items k) := by
  induction items with
  | nil => exact f.map_zero.symm
  | cons x items ih =>
    rw [List.map_cons, amount_cons, amount_cons, f.map_add, ih]
    split <;> simp

omit [DecidableEq κ] in
theorem total_map_value {ν' : Type} [AddCommMonoid ν'] (f : ν →+ ν') (items : List (κ × ν)) :
    total (items.map (fun x => (x.1, f x.2))) = f (total items) := by
  induction items with
  | nil => exact f.map_zero.symm
  | cons x items ih =>
    have hcons : ∀ {μ : Type} [AddCommMonoid μ] (y : κ × μ) (l : List (κ × μ)), total (y :: l) = y.2 + total l :=
      fun y l => List.sum_cons
    rw [List.map_cons, hcons, hcons, f.map_add, ih]

omit [AddCommMonoid ν] in
theorem get_setAll (f : κ → ν) (k : κ) : ∀ (ks : List κ) (d : List (κ × ν)),
    get (ks.foldl (fun d k => set d k (f k)) d) k = if k ∈ ks then some (f k) else get d k
  | [],      d => by simp
  | j :: ks, d => by
    rw [List.foldl_cons, get_setAll f k ks, get_set]
    by_cases hks : k ∈ ks
    · simp [hks]
    · by_cases hj : k = j
      · subst hj
        simp
      · simp [hks, hj]

end Tally
