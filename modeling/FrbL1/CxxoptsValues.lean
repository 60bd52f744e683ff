import FrbL1.Cxxopts
import FrbL1.Digits
import FrbL1.FileUtils
import Mathlib.Data.Int.ModEq
import Mathlib.Tactic.Linarith
/-!
# CxxoptsValues — integers and booleans on a command line

`integer_parser` for `int`, with its unsigned accumulator.  The check for overflow compares products that have wrapped
around already, so that some numerals from 2^32 on are accepted, as their value modulo 2^32 (`integerParser_exact_iff`).
-/
namespace Cxxopts

/-! ## The accumulator -/

def digitOf (base : Nat) (c : Char) : Option Nat :=
  if '0' ≤ c ∧ c ≤ '9' then some (c.toNat - '0'.toNat)
  else if base = 16 ∧ 'a' ≤ c ∧ c ≤ 'f' then some (c.toNat - 'a'.toNat + 10)
  else if base = 16 ∧ 'A' ≤ c ∧ c ≤ 'F' then some (c.toNat - 'A'.toNat + 10)
  else none

def accumulate (text : Arg) (base : Nat) : Arg → UInt32 → Except Arg UInt32
  | [], result => .ok result
  | c :: s, result =>
    match digitOf base c with
    | none       => .error (argumentIncorrectType text)
    | some digit =>
      if 0xffffffff - UInt32.ofNat digit < result * UInt32.ofNat base then .error (argumentIncorrectType text)
      else accumulate text base s (result * UInt32.ofNat base + UInt32.ofNat digit)

/-- The number that digits behind `n` stand for. -/
def numeral (base : Nat) : Arg → Nat → Option Nat
  | [], n     => some n
  | c :: s, n => (digitOf base c).bind (fun digit => numeral base s (n * base + digit))

theorem digitOf_lt {base digit : Nat} {c : Char} (h : digitOf base c = some digit) : digit < 16 := by
  unfold digitOf at h
  split at h
  · rename_i hc
    obtain rfl := Option.some.inj h
    have hle : c.toNat ≤ '9'.toNat := hc.2
    have h9 : '9'.toNat = 57 := rfl
    have h0 : '0'.toNat = 48 := rfl
    omega
  · split at h
    · rename_i hc
      obtain rfl := Option.some.inj h
      have hle : c.toNat ≤ 'f'.toNat := hc.2.2
      have hf : 'f'.toNat = 102 := rfl
      have ha : 'a'.toNat = 97 := rfl
      omega
    · split at h
      · rename_i hc
        obtain rfl := Option.some.inj h
        have hle : c.toNat ≤ 'F'.toNat := hc.2.2
        have hf : 'F'.toNat = 70 := rfl
        have ha : 'A'.toNat = 65 := rfl
        omega
      · cases h

theorem le_numeral {base : Nat} (hbase : 0 < base) : ∀ {s : Arg} {n N : Nat}, numeral base s n = some N → n ≤ N
  | [], n, N, h => (Option.some.inj h).le
  | c :: s, n, N, h => by
    obtain ⟨digit, -, h⟩ := Option.bind_eq_some_iff.1 h
    have hle := le_numeral hbase h
    have hmul : n * 1 ≤ n * base := Nat.mul_le_mul_left n hbase
    omega

theorem accumulate_eq_ok {text : Arg} {base : Nat} : ∀ {s : Arg} {n : Nat} {result : UInt32},
    accumulate text base s (UInt32.ofNat n) = .ok result → ∃ N, numeral base s n = some N ∧ result = UInt32.ofNat N
  | [], n, result, h => ⟨n, rfl, (Except.ok.inj h).symm⟩
  | c :: s, n, result, h => by
    rw [accumulate] at h
    cases hc : digitOf base c with
    | none =>
      rw [hc] at h
      cases h
    | some digit =>
      simp only [hc] at h
      split at h
      · cases h
      · rw [← UInt32.ofNat_mul, ← UInt32.ofNat_add] at h
        obtain ⟨N, hN, hresult⟩ := accumulate_eq_ok h
        exact ⟨N, by rw [numeral, hc]; exact hN, hresult⟩

theorem accumulate_of_lt {base : Nat} (hbase : 0 < base) (hsmall : base < 2 ^ 32) (text : Arg) :
    ∀ {s : Arg} {n N : Nat}, numeral base s n = some N → N < 2 ^ 32 →
      accumulate text base s (UInt32.ofNat n) = .ok (UInt32.ofNat N)
  | [], n, N, h, _ => by
    rw [Option.some.inj h]
    rfl
  | c :: s, n, N, h, hN => by
    obtain ⟨digit, hc, h⟩ := Option.bind_eq_some_iff.1 h
    have hle := le_numeral hbase h
    have hdigit := digitOf_lt hc
    have hmul : n * 1 ≤ n * base := Nat.mul_le_mul_left n hbase
    have hcheck : ¬ 0xffffffff - UInt32.ofNat digit < UInt32.ofNat n * UInt32.ofNat base := by
      have hdigit' : (UInt32.ofNat digit).toNat = digit := UInt32.toNat_ofNat_of_lt' (by rw [UInt32.size]; omega)
      have hproduct : (UInt32.ofNat (n * base)).toNat = n * base :=
        UInt32.toNat_ofNat_of_lt' (by rw [UInt32.size]; omega)
      have hmax : (0xffffffff : UInt32).toNat = 4294967295 := rfl
      have hsub : (0xffffffff - UInt32.ofNat digit).toNat = 4294967295 - digit := by
        rw [UInt32.toNat_sub_of_le _ _ (by rw [UInt32.le_iff_toNat_le, hdigit', hmax]; omega), hdigit', hmax]
      rw [← UInt32.ofNat_mul, UInt32.lt_iff_toNat_lt, hsub, hproduct]
      omega
    rw [accumulate]
    simp only [hc]
    rw [if_neg hcheck, ← UInt32.ofNat_mul, ← UInt32.ofNat_add]
    exact accumulate_of_lt hbase hsmall text h hN

/-! ## Integers -/

/-- The groups of `(-)?(0x)?([1-9a-zA-Z][0-9a-zA-Z]*)|((0x)?0)`. -/
inductive IntegerMatch
  | number (negative hex : Bool) (digits : Arg)
  | zero

def stripMinus : Arg → Bool × Arg
  | '-' :: s => (true, s)
  | s        => (false, s)

def stripHex : Arg → Bool × Arg
  | '0' :: 'x' :: s => (true, s)
  | s               => (false, s)

/-- No text has two matches: the digits do not begin with a zero. -/
def integerPattern (text : Arg) : Option IntegerMatch :=
  if text = ['0'] ∨ text = ['0', 'x', '0'] then some .zero
  else
    let minus := stripMinus text
    let hex := stripHex minus.2
    match hex.2 with
    | []     => none
    | c :: s => if c ≠ '0' ∧ (c :: s).all Char.isAlphanum then some (.number minus.1 hex.1 (c :: s)) else none

def baseOf (hex : Bool) : Nat := if hex then 16 else 10

/-- `check_signed_range<int>` and `checked_negate`; `INT_MIN` is its own negative. -/
def checkSigned (text : Arg) (negative : Bool) (u : UInt32) : Except Arg Int :=
  if negative then
    if u > 0x80000000 then .error (argumentIncorrectType text) else .ok (-(u.toNat : Int))
  else if u > 0x7fffffff then .error (argumentIncorrectType text) else .ok u.toNat

/-- `integer_parser<int>` -/
def integerParser (text : Arg) : Except Arg Int :=
  match integerPattern text with
  | none       => .error (argumentIncorrectType text)
  | some .zero => .ok 0
  | some (.number negative hex digits) => (accumulate text (baseOf hex) digits 0).bind (checkSigned text negative)

def signed (negative : Bool) (N : Nat) : Int := if negative then -(N : Int) else N

theorem checkSigned_eq_ok {text : Arg} {negative : Bool} {u : UInt32} {n : Int} :
    checkSigned text negative u = .ok n ↔ n = signed negative u.toNat ∧ -2 ^ 31 ≤ n ∧ n < 2 ^ 31 := by
  have hmin : (0x80000000 : UInt32).toNat = 2 ^ 31 := rfl
  have hmax : (0x7fffffff : UInt32).toNat = 2 ^ 31 - 1 := rfl
  unfold checkSigned signed
  cases negative
  · simp only [Bool.false_eq_true, if_false, gt_iff_lt, UInt32.lt_iff_toNat_lt, hmax]
    split
    · simp only [reduceCtorEq, false_iff]
      omega
    · simp only [Except.ok.injEq]
      omega
  · simp only [if_true, gt_iff_lt, UInt32.lt_iff_toNat_lt, hmin]
    split
    · simp only [reduceCtorEq, false_iff]
      omega
    · simp only [Except.ok.injEq]
      omega

theorem baseOf_bounds (hex : Bool) : 0 < baseOf hex ∧ baseOf hex < 2 ^ 32 := by
  cases hex <;> decide

structure IsNumeral (text : Arg) (negative : Bool) (N : Nat) : Prop where
  exists_digits : ∃ hex digits, integerPattern text = some (.number negative hex digits) ∧
    numeral (baseOf hex) digits 0 = some N

/-- An accepted text that is not a zero is a numeral, and read modulo 2^32. -/
theorem integerParser_eq_ok {text : Arg} {n : Int} (h : integerParser text = .ok n) :
    (integerPattern text = some .zero ∧ n = 0) ∨ ∃ negative N, IsNumeral text negative N ∧
      n = signed negative (N % 2 ^ 32) ∧ -2 ^ 31 ≤ n ∧ n < 2 ^ 31 := by
  unfold integerParser at h
  split at h
  · cases h
  · rename_i hzero
    exact .inl ⟨hzero, (Except.ok.inj h).symm⟩
  · rename_i negative hex digits hpattern
    cases hacc : accumulate text (baseOf hex) digits 0 with
    | error e =>
      rw [hacc] at h
      cases h
    | ok u =>
      rw [hacc] at h
      obtain ⟨N, hN, rfl⟩ := accumulate_eq_ok (n := 0) hacc
      obtain ⟨hn, hrange⟩ := checkSigned_eq_ok.1 h
      exact .inr ⟨negative, N, ⟨hex, digits, hpattern, hN⟩, hn, hrange⟩

/-- **Numerals below 2^32** are accepted if and only if they are an `int`. -/
theorem integerParser_of_lt {text : Arg} {negative : Bool} {N : Nat} (h : IsNumeral text negative N) (hN : N < 2 ^ 32)
    (n : Int) : integerParser text = .ok n ↔ n = signed negative N ∧ -2 ^ 31 ≤ n ∧ n < 2 ^ 31 := by
  obtain ⟨hex, digits, hpattern, hnumeral⟩ := h.exists_digits
  have hacc : accumulate text (baseOf hex) digits 0 = .ok (UInt32.ofNat N) :=
    accumulate_of_lt (n := 0) (baseOf_bounds hex).1 (baseOf_bounds hex).2 text hnumeral hN
  have hvalue : (UInt32.ofNat N).toNat = N := UInt32.toNat_ofNat_of_lt' hN
  simp only [integerParser, hpattern, hacc]
  exact checkSigned_eq_ok.trans (by rw [hvalue])

theorem IsNumeral.unique {text : Arg} {negative negative' : Bool} {N N' : Nat} (h : IsNumeral text negative N)
    (h' : IsNumeral text negative' N') : negative = negative' ∧ N = N' := by
  obtain ⟨hex, digits, hpattern, hnumeral⟩ := h.exists_digits
  obtain ⟨hex', digits', hpattern', hnumeral'⟩ := h'.exists_digits
  have hmatch := Option.some.inj (hpattern.symm.trans hpattern')
  injection hmatch with hnegative hhex hdigits
  subst hhex hdigits
  exact ⟨hnegative, Option.some.inj (hnumeral.symm.trans hnumeral')⟩

/-- **What an accepted text is read as**: zero, or the text is a numeral and read modulo 2^32, which is right if and only
if the numeral is below 2^32; and such a numeral is accepted if and only if it is an `int`. -/
theorem integerParser_exact_iff (text : Arg) :
    (∀ n, integerParser text = .ok n → (integerPattern text = some .zero ∧ n = 0) ∨ ∃ negative N,
      IsNumeral text negative N ∧ n = signed negative (N % 2 ^ 32) ∧ -2 ^ 31 ≤ n ∧ n < 2 ^ 31 ∧
        (n = signed negative N ↔ N < 2 ^ 32)) ∧
    ∀ negative N, IsNumeral text negative N → N < 2 ^ 32 → ((∃ n, integerParser text = .ok n) ↔
      -2 ^ 31 ≤ signed negative N ∧ signed negative N < 2 ^ 31) := by
  constructor
  · intro n h
    obtain hzero | ⟨negative, N, hnumeral, hn, hlo, hhi⟩ := integerParser_eq_ok h
    · exact .inl hzero
    · refine .inr ⟨negative, N, hnumeral, hn, hlo, hhi, fun hexact => ?_, fun hN => ?_⟩
      · rw [hexact] at hlo hhi
        unfold signed at hlo hhi
        cases negative <;> simp only [if_true, if_false, Bool.false_eq_true] at hlo hhi <;> omega
      · exact ((integerParser_of_lt hnumeral hN n).1 h).1
  · intro negative N hnumeral hN
    constructor
    · rintro ⟨n, h⟩
      obtain ⟨rfl, hrange⟩ := (integerParser_of_lt hnumeral hN n).1 h
      exact hrange
    · intro hrange
      exact ⟨_, (integerParser_of_lt hnumeral hN _).2 ⟨rfl, hrange⟩⟩

/-- A numeral that is accepted and not read right. -/
theorem integerParser_exact_iff_wraps : integerParser "4294967300".toList = .ok 4 ∧ ∃ negative N,
    IsNumeral "4294967300".toList negative N ∧ N = 4294967300 ∧ (4 : Int) = signed negative (N % 2 ^ 32) ∧
      (4 : Int) ≠ signed negative N := by
  have hnumeral : IsNumeral "4294967300".toList false 4294967300 := ⟨false, "4294967300".toList, rfl, rfl⟩
  obtain ⟨hzero, -⟩ | ⟨negative, N, h, hmod, -, -, hiff⟩ := (integerParser_exact_iff "4294967300".toList).1 4 rfl
  · cases hzero
  · obtain ⟨-, rfl⟩ := h.unique hnumeral
    exact ⟨rfl, negative, _, h, rfl, hmod, fun hn => absurd (hiff.1 hn) (by decide)⟩

/-! ## The texts of integers -/

theorem digitOf_of_isDigit {c : Char} (h : c.isDigit = true) (base : Nat) :
    digitOf base c = some (c.toNat - '0'.toNat) := by
  have hc : '0' ≤ c ∧ c ≤ '9' := by simpa [Char.isDigit, Char.le_def] using h
  rw [digitOf, if_pos hc]

theorem numeral_of_isDigit : ∀ {s : Arg}, (∀ c ∈ s, c.isDigit = true) → ∀ n,
    numeral 10 s n = some (Nat.ofDigitChars 10 s n)
  | [], _, n => by rw [Nat.ofDigitChars_nil, numeral]
  | c :: s, h, n => by
    obtain ⟨hc, hs⟩ := List.forall_mem_cons.1 h
    rw [numeral, digitOf_of_isDigit hc, Option.bind_some, numeral_of_isDigit hs, Nat.ofDigitChars_cons, Nat.mul_comm]

theorem integerPattern_digits (negative : Bool) {N : Nat} (hN : 0 < N) :
    integerPattern ((if negative then ['-'] else []) ++ Nat.toDigits 10 N) =
      some (.number negative false (Nat.toDigits 10 N)) := by
  have hhead := Digits.head?_ne_zero N hN
  have hdigit : ∀ c ∈ Nat.toDigits 10 N, c.isDigit = true := fun c => Digits.isDigit_of_mem
  obtain ⟨c, s, hcs⟩ := List.exists_cons_of_ne_nil (Nat.toDigits_ne_nil (n := N) (b := 10))
  rw [hcs] at hhead hdigit ⊢
  have hc : c ≠ '0' := fun h => hhead (congrArg some h)
  have hall : (c :: s).all Char.isAlphanum = true :=
    List.all_eq_true.2 (fun d hd => by simp [Char.isAlphanum, hdigit d hd])
  have hminus : c ≠ '-' := fun h => by
    have hd := hdigit c (.head _)
    rw [h] at hd
    cases hd
  cases negative <;> simp [integerPattern, stripMinus, stripHex, hc, hminus, hall]

/-- **The decimal text of an `int` is read as that.** -/
theorem integerParser_toString {n : Int} (hlo : -2 ^ 31 ≤ n) (hhi : n < 2 ^ 31) :
    integerParser (FrbL1.FileUtils.toString n) = .ok n := by
  by_cases h0 : n = 0
  · rw [h0]
    rfl
  have hpos : 0 < n.natAbs := Int.natAbs_pos.2 h0
  have hnumeral : IsNumeral (FrbL1.FileUtils.toString n) (decide (n < 0)) n.natAbs := by
    refine ⟨false, Nat.toDigits 10 n.natAbs, ?_, ?_⟩
    · rw [← integerPattern_digits _ hpos]
      unfold FrbL1.FileUtils.toString
      by_cases hneg : n < 0 <;> simp [hneg]
    · rw [baseOf, if_neg Bool.false_ne_true, numeral_of_isDigit (fun c => Digits.isDigit_of_mem),
        Nat.ofDigitChars_ten_toDigits]
  refine (integerParser_of_lt hnumeral (by omega) n).2 ⟨?_, hlo, hhi⟩
  unfold signed
  by_cases hneg : n < 0 <;> simp only [hneg, decide_true, decide_false, if_true, if_false, Bool.false_eq_true] <;> omega

/-! ## Booleans -/

/-- `(t|T)(rue)?` -/
def isTruthy (text : Arg) : Bool := text ∈ ["t".toList, "T".toList, "true".toList, "True".toList]

/-- `((f|F)(alse)?)?` -/
def isFalsy (text : Arg) : Bool := text ∈ ["".toList, "f".toList, "F".toList, "false".toList, "False".toList]

/-- `parse_value` for `bool` -/
def booleanParser (text : Arg) : Except Arg Bool :=
  if isTruthy text then .ok true else if isFalsy text then .ok false else .error (argumentIncorrectType text)

end Cxxopts
