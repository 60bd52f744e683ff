import Mathlib.Algebra.Group.Int.Defs
import Mathlib.Logic.Basic
/-!
# IntArith — arithmetic in a range of integers

The operations fail if their result does not fit, or if they divide by zero.  A computation is told by when it ends and
with what (`Yields`); a sequence of computations ends if all of them do (`Yields.bind`).
-/
namespace IntArith

inductive Fault
  | overflow
  | divideByZero
  deriving DecidableEq

section
variable {ε α β : Type} {x : Except ε α} {f : α → Except ε β} {P Q : Prop} {v : α} {w : β}

/-- `x` ends if `P` holds, and then with `v`. -/
def Yields (x : Except ε α) (P : Prop) (v : α) : Prop := ∀ u, x = .ok u ↔ P ∧ u = v

theorem Yields.exists_iff (h : Yields x P v) : (∃ u, x = .ok u) ↔ P := by
  constructor
  · rintro ⟨u, hu⟩
    exact ((h u).1 hu).1
  · intro hP
    exact ⟨v, (h v).2 ⟨hP, rfl⟩⟩

theorem Yields.congr (h : Yields x P v) (hPQ : P ↔ Q) : Yields x Q v := fun u => by rw [h u, hPQ]

theorem yields_ok (v : α) : Yields (Except.ok v : Except ε α) True v := by
  intro u
  constructor
  · intro h
    exact ⟨trivial, (Except.ok.inj h).symm⟩
  · rintro ⟨-, rfl⟩
    rfl

theorem Yields.bind (hx : Yields x P v) (hf : P → Yields (f v) Q w) : Yields (x >>= f) (P ∧ Q) w := by
  intro u
  constructor
  · intro h
    cases hx' : x with
    | error e => rw [hx'] at h; cases h
    | ok a =>
      obtain ⟨hP, rfl⟩ := (hx a).1 hx'
      rw [hx'] at h
      obtain ⟨hQ, hu⟩ := (hf hP u).1 h
      exact ⟨⟨hP, hQ⟩, hu⟩
  · rintro ⟨⟨hP, hQ⟩, rfl⟩
    rw [(hx v).2 ⟨hP, rfl⟩]
    exact (hf hP u).2 ⟨hQ, rfl⟩

theorem Yields.map (hx : Yields x P v) (g : α → β) : Yields (x >>= fun a => .ok (g a)) P (g v) :=
  (hx.bind (fun _ => yields_ok (g v))).congr (and_iff_left trivial)

end

section
variable (Fits : Int → Prop) [DecidablePred Fits]

def ofInt (n : Int) : Except Fault Int := if Fits n then .ok n else .error .overflow

def add (a b : Int) : Except Fault Int := ofInt Fits (a + b)
def sub (a b : Int) : Except Fault Int := ofInt Fits (a - b)
def mul (a b : Int) : Except Fault Int := ofInt Fits (a * b)

/-- The quotient is rounded towards zero. -/
def div (a b : Int) : Except Fault Int := if b = 0 then .error .divideByZero else ofInt Fits (a.tdiv b)

variable {Fits}

theorem yields_ofInt (n : Int) : Yields (ofInt Fits n) (Fits n) n := by
  intro u
  unfold ofInt
  split
  · rename_i hn
    constructor
    · intro h
      exact ⟨hn, (Except.ok.inj h).symm⟩
    · rintro ⟨-, rfl⟩
      rfl
  · rename_i hn
    constructor
    · intro h
      cases h
    · rintro ⟨hn', -⟩
      exact absurd hn' hn

theorem yields_add (a b : Int) : Yields (add Fits a b) (Fits (a + b)) (a + b) := yields_ofInt _
theorem yields_sub (a b : Int) : Yields (sub Fits a b) (Fits (a - b)) (a - b) := yields_ofInt _
theorem yields_mul (a b : Int) : Yields (mul Fits a b) (Fits (a * b)) (a * b) := yields_ofInt _

theorem yields_div (a : Int) {b : Int} (hb : b ≠ 0) : Yields (div Fits a b) (Fits (a.tdiv b)) (a.tdiv b) := by
  unfold div
  rw [if_neg hb]
  exact yields_ofInt _

end

end IntArith
