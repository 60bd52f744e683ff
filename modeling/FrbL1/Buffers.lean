import FrbL1.Blocks
import Mathlib.Data.List.Basic
/-!
# Buffers — lists that are written by index

Writes are applied to a list one after the other, and a write past its end fails.  Where all writes agree with a
function of the index, the order does not matter (`getElem?_writeAll`).  Rows that follow each other without a gap
write a prefix (`rows_iff`).
-/
namespace Buffers

open Blocks (row_div row_lt row_mod)

variable {α : Type}

/-- Each write in turn; `none` where one is past the end. -/
def writeAll : List (Nat × α) → List α → Option (List α)
  | [],           buf => some buf
  | (k, x) :: ws, buf => if k < buf.length then writeAll ws (buf.set k x) else none

theorem writeAll_eq_some : ∀ (ws : List (Nat × α)) (buf : List α),
    (∃ buf', writeAll ws buf = some buf') ↔ ∀ w ∈ ws, w.1 < buf.length
  | [], buf => by simp [writeAll]
  | (k, x) :: ws, buf => by
    unfold writeAll
    split
    · rename_i hk
      rw [writeAll_eq_some, List.length_set, List.forall_mem_cons]
      exact (and_iff_right hk).symm
    · rename_i hk
      simp [hk]

theorem length_writeAll : ∀ {ws : List (Nat × α)} {buf buf' : List α}, writeAll ws buf = some buf' →
    buf'.length = buf.length
  | [],           buf, buf', h => by
    obtain rfl := Option.some.inj h
    rfl
  | (k, x) :: ws, buf, buf', h => by
    unfold writeAll at h
    split at h
    · rw [length_writeAll h, List.length_set]
    · cases h

theorem getElem?_writeAll {f : Nat → α} : ∀ {ws : List (Nat × α)} {buf buf' : List α}, writeAll ws buf = some buf' →
    (∀ w ∈ ws, w.2 = f w.1) → ∀ k, ((∃ x, (k, x) ∈ ws) → buf'[k]? = some (f k)) ∧
      ((¬ ∃ x, (k, x) ∈ ws) → buf'[k]? = buf[k]?)
  | [], buf, buf', h, _, k => by
    obtain rfl := Option.some.inj h
    simp
  | (j, y) :: ws, buf, buf', h, hf, k => by
    unfold writeAll at h
    split at h
    · rename_i hj
      obtain ⟨hin, hout⟩ := getElem?_writeAll h (fun w hw => hf w (.tail _ hw)) k
      have hy : y = f j := hf (j, y) (.head _)
      by_cases hws : ∃ x, (k, x) ∈ ws
      · refine ⟨fun _ => hin hws, fun hnot => absurd ?_ hnot⟩
        obtain ⟨x, hx⟩ := hws
        exact ⟨x, .tail _ hx⟩
      · rw [hout hws]
        by_cases hkj : k = j
        · subst hkj
          refine ⟨fun _ => ?_, fun hnot => absurd ⟨y, .head _⟩ hnot⟩
          rw [List.getElem?_set_self hj, hy]
        · rw [List.getElem?_set_ne (Ne.symm hkj)]
          refine ⟨fun ⟨x, hx⟩ => ?_, fun _ => rfl⟩
          obtain heq | hx := List.mem_cons.1 hx
          · exact absurd (Prod.mk.inj heq).1 hkj
          · exact absurd ⟨x, hx⟩ hws
    · cases h

/-- The writes of `nrows` rows of `n` elements, from a table and a column of it. -/
def Rows (ws : List (Nat × α)) (data : Nat → Nat → α) (nrows col n stride : Nat) : Prop :=
  ∀ k x, (k, x) ∈ ws ↔ ∃ r < nrows, ∃ j < n, k = r * stride + j ∧ x = data r (col + j)

theorem rows_iff {ws : List (Nat × α)} {data : Nat → Nat → α} {nrows col n : Nat} (h : Rows ws data nrows col n n)
    (k : Nat) (x : α) : (k, x) ∈ ws ↔ k < nrows * n ∧ x = data (k / n) (col + k % n) := by
  rw [h k x]
  constructor
  · rintro ⟨r, hr, j, hj, rfl, rfl⟩
    exact ⟨row_lt hr hj, by rw [row_div hj, row_mod hj]⟩
  · rintro ⟨hk, rfl⟩
    have hn : 0 < n := Nat.pos_of_ne_zero (fun h0 => by rw [h0, Nat.mul_zero] at hk; exact Nat.not_lt_zero _ hk)
    refine ⟨k / n, Nat.div_lt_of_lt_mul (by rwa [Nat.mul_comm]), k % n, Nat.mod_lt k hn, ?_, rfl⟩
    rw [Nat.mul_comm]
    exact (Nat.div_add_mod k n).symm

/-- The rows fit if and only if the list is long enough. -/
theorem writeAll_rows {ws : List (Nat × α)} {data : Nat → Nat → α} {nrows col n : Nat} (h : Rows ws data nrows col n n)
    (buf : List α) : (∃ buf', writeAll ws buf = some buf') ↔ nrows * n ≤ buf.length := by
  rw [writeAll_eq_some]
  constructor
  · intro hall
    by_contra hlt
    have hmem := (rows_iff h buf.length _).2 ⟨not_le.1 hlt, rfl⟩
    exact Nat.lt_irrefl _ (hall _ hmem)
  · intro hle w hw
    exact ((rows_iff h w.1 w.2).1 hw).1.trans_le hle

theorem getElem?_rows {ws : List (Nat × α)} {data : Nat → Nat → α} {nrows col n : Nat} (h : Rows ws data nrows col n n)
    {buf buf' : List α} (hw : writeAll ws buf = some buf') (k : Nat) :
    buf'[k]? = if k < nrows * n then some (data (k / n) (col + k % n)) else buf[k]? := by
  obtain ⟨hin, hout⟩ := getElem?_writeAll (f := fun k => data (k / n) (col + k % n)) hw
    (fun w hw => ((rows_iff h w.1 w.2).1 hw).2) k
  split
  · rename_i hk
    exact hin ⟨_, (rows_iff h k _).2 ⟨hk, rfl⟩⟩
  · rename_i hk
    exact hout (fun ⟨x, hx⟩ => hk ((rows_iff h k x).1 hx).1)

/-! ## Copies -/

/-- The first `n` elements, from the beginning of a list to the beginning of another. -/
def memcpy (dst src : List α) (n : Int) : Option (List α) :=
  if 0 ≤ n ∧ n ≤ src.length ∧ n ≤ dst.length then some (src.take n.toNat ++ dst.drop n.toNat) else none

theorem memcpy_fills {dst src : List α} {n : Int} (hdst : (dst.length : Int) = n) :
    memcpy dst src n = some src ↔ n = src.length := by
  unfold memcpy
  constructor
  · intro h
    split at h
    · have hlen := congrArg List.length (Option.some.inj h)
      rw [List.length_append, List.length_take, List.length_drop] at hlen
      omega
    · cases h
  · rintro rfl
    rw [if_pos (by omega), Int.toNat_natCast, List.take_length, List.drop_of_length_le (by omega), List.append_nil]

end Buffers
