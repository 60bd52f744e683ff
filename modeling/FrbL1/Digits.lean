import Mathlib.Data.List.Basic
/-!
# Digits — decimal numbers in text

What is in a decimal number, and that it tells the number, with zeros in front (`zeros_inj`) or without (`inj`), and
at the end of a text (`cut`).
-/
namespace Digits

theorem isDigit_of_mem {c : Char} {n : Nat} (h : c ∈ Nat.toDigits 10 n) : c.isDigit = true :=
  Nat.isDigit_of_mem_toDigits (by decide) (by decide) h

theorem notMem {c : Char} (hc : c.isDigit = false) (n : Nat) : c ∉ Nat.toDigits 10 n := fun h => by
  rw [isDigit_of_mem h] at hc
  cases hc

/-- Decimal numbers differ, zeros in front or not. -/
theorem zeros_inj {a b m n : Nat}
    (h : List.replicate a '0' ++ Nat.toDigits 10 m = List.replicate b '0' ++ Nat.toDigits 10 n) : m = n := by
  have hval : ∀ k i : Nat, Nat.ofDigitChars 10 (List.replicate k '0' ++ Nat.toDigits 10 i) 0 = i := fun k i => by
    rw [Nat.ofDigitChars_append, Nat.ofDigitChars_replicate_zero, Nat.mul_zero, Nat.ofDigitChars_ten_toDigits]
  rw [← hval a m, h, hval b n]

theorem inj {m n : Nat} (h : Nat.toDigits 10 m = Nat.toDigits 10 n) : m = n :=
  zeros_inj (a := 0) (b := 0) (congrArg ([] ++ ·) h)

/-- A number is read from the end, behind a character that is not a digit. -/
theorem cut {s t : List Char} {c d : Char} {m n : Nat} (hc : c.isDigit = false) (hd : d.isDigit = false)
    (h : s ++ c :: Nat.toDigits 10 m = t ++ d :: Nat.toDigits 10 n) : s = t ∧ c = d ∧ m = n := by
  have htake : ∀ (u : List Char) (x : Char) (k : Nat), x.isDigit = false →
      (u ++ x :: Nat.toDigits 10 k).reverse.takeWhile Char.isDigit = (Nat.toDigits 10 k).reverse := by
    intro u x k hx
    have hall : ∀ y ∈ (Nat.toDigits 10 k).reverse, y.isDigit = true := fun y hy => isDigit_of_mem (List.mem_reverse.1 hy)
    simp [List.takeWhile_append_of_pos hall, hx]
  have hnum : m = n := by
    have hrev := congrArg (fun u => u.reverse.takeWhile Char.isDigit) h
    simp only [htake _ _ _ hc, htake _ _ _ hd] at hrev
    exact inj (List.reverse_inj.1 hrev)
  subst hnum
  obtain ⟨rfl, hcd⟩ := List.append_inj' h rfl
  exact ⟨rfl, (List.cons.inj hcd).1, rfl⟩

theorem head?_ne_zero (n : Nat) (hn : 0 < n) : (Nat.toDigits 10 n).head? ≠ some '0' := by
  induction n using Nat.strongRecOn with
  | ind n ih =>
    rw [Nat.toDigits_eq_if (by decide)]
    split
    · rename_i hlt
      intro h
      have hchar : Nat.digitChar n = Nat.digitChar 0 := Option.some.inj h
      have hval := congrArg Char.toNat hchar
      have hsub := Nat.toNat_digitChar_sub_48_of_lt_ten hlt
      rw [hval] at hsub
      exact absurd hsub.symm (Nat.pos_iff_ne_zero.1 hn)
    · rename_i hge
      rw [List.head?_append_of_ne_nil _ Nat.toDigits_ne_nil]
      exact ih (n / 10) (by omega) (by omega)

end Digits
