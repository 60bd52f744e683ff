import FrbL1.AcqPlaces
import FrbL1.RpcServer
import FrbL1.Template
/-!
# FilenamePattern — the replacements in a filename pattern

`assembled_chunk::format_filename` is code of ch_frb_io, and a parameter wherever it is used.  What is relied on is the
list of replacements in `rpc.hpp` (`FormatsAsDocumented`): a text without any of them stays as it is, one with some of
them does not, and a pattern is formatted directory by directory.
-/
namespace FrbL1
namespace FileUtils

open Posix (Filename)
open Rpc (AssembledChunk)
open Template (Names fill)

/-! ## Numbers -/

def zeroPadded (width n : Nat) : List Char :=
  List.replicate (width - (Nat.toDigits 10 n).length) '0' ++ Nat.toDigits 10 n

/-- `%0<width>i` -/
def formatInt (width : Nat) (n : Int) : List Char :=
  if n < 0 then '-' :: zeroPadded (width - 1) n.natAbs else zeroPadded width n.natAbs

theorem mem_formatInt {c : Char} {width : Nat} {n : Int} (h : c ∈ formatInt width n) : c.isDigit = true ∨ c = '-' := by
  have hdigits : ∀ {k m : Nat}, c ∈ zeroPadded k m → c.isDigit = true := fun h => by
    rcases List.mem_append.1 h with h | h
    · rw [List.eq_of_mem_replicate h]
      rfl
    · exact Digits.isDigit_of_mem h
  unfold formatInt at h
  split at h
  · rcases List.mem_cons.1 h with h | h
    · exact .inr h
    · exact .inl (hdigits h)
  · exact .inl (hdigits h)

theorem not_mem_formatInt {c : Char} (hdigit : c.isDigit = false) (hminus : c ≠ '-') (width : Nat) (n : Int) :
    c ∉ formatInt width n := fun h => by
  rcases mem_formatInt h with h | h
  · rw [hdigit] at h
    cases h
  · exact hminus h

theorem formatInt_one (n : Int) : formatInt 1 n = toString n := by
  have hpos : 0 < (Nat.toDigits 10 n.natAbs).length := List.length_pos_of_ne_nil Nat.toDigits_ne_nil
  have hzero : 1 - (Nat.toDigits 10 n.natAbs).length = 0 := by omega
  unfold formatInt toString zeroPadded
  rw [hzero, Nat.sub_self, Nat.zero_sub, List.replicate_zero, List.nil_append]

theorem formatInt_injective (width : Nat) {m n : Int} (h : formatInt width m = formatInt width n) : m = n := by
  unfold formatInt zeroPadded at h
  split at h <;> split at h
  · have := Digits.zeros_inj (List.cons.inj h).2
    omega
  · exact absurd (h ▸ List.mem_cons_self) (minus_not_mem _ _)
  · exact absurd (h.symm ▸ List.mem_cons_self) (minus_not_mem _ _)
  · have := Digits.zeros_inj h
    omega

theorem setw_eq_formatInt {width : Nat} {n : Int} : setw width n = formatInt width n ↔
    0 ≤ n ∨ width ≤ (Nat.toDigits 10 n.natAbs).length + 1 := by
  unfold setw formatInt toString zeroPadded
  by_cases hn : n < 0
  · have hge : ¬ 0 ≤ n := by omega
    have hsub : width - 1 - (Nat.toDigits 10 n.natAbs).length = width - ((Nat.toDigits 10 n.natAbs).length + 1) := by
      omega
    simp only [hn, hge, if_true, false_or, List.length_cons]
    rw [hsub]
    constructor
    · intro h
      by_contra hlt
      obtain ⟨k, hk⟩ := Nat.exists_eq_succ_of_ne_zero (Nat.sub_ne_zero_of_lt (not_le.1 hlt))
      rw [hk, List.replicate_succ, List.cons_append] at h
      exact absurd (List.cons.inj h).1 (by decide)
    · intro hle
      rw [Nat.sub_eq_zero_of_le hle]
      rfl
  · have hge : 0 ≤ n := by omega
    simp only [hn, hge, if_false, true_or]

/-! ## The replacements -/

inductive Placeholder
  | stream
  | beam
  | chunk
  | nchunk
  | binning
  | fpga0
  | fpgaN
  deriving DecidableEq

def Placeholder.name : Placeholder → List Char
  | .stream  => "STREAM".toList
  | .beam    => "BEAM".toList
  | .chunk   => "CHUNK".toList
  | .nchunk  => "NCHUNK".toList
  | .binning => "BINNING".toList
  | .fpga0   => "FPGA0".toList
  | .fpgaN   => "FPGAN".toList

def Placeholder.text (p : Placeholder) : List Char := '(' :: (p.name ++ [')'])

def Placeholder.value (k : AssembledChunk) : Placeholder → List Char
  | .stream  => formatInt 1 k.streamId
  | .beam    => formatInt 4 k.beamId
  | .chunk   => formatInt 8 k.ichunk.toNat
  | .nchunk  => formatInt 2 k.binning
  | .binning => formatInt 2 k.binning
  | .fpga0   => formatInt 12 k.fpgaBegin.toNat
  | .fpgaN   => formatInt 8 (k.fpgaEnd - k.fpgaBegin).toNat

theorem paren_not_mem_name (p : Placeholder) : ')' ∉ p.name := by cases p <;> decide

theorem name_injective {p p' : Placeholder} (h : p.name = p'.name) : p = p' := by
  cases p <;> cases p' <;> first | rfl | exact absurd h (by decide)

theorem text_apart (p p' : Placeholder) (rest : List Char) (h : p.text <+: p'.text ++ rest) : p = p' := by
  obtain ⟨t, ht⟩ := h
  unfold Placeholder.text at ht
  simp only [List.cons_append, List.append_assoc, List.nil_append] at ht
  exact name_injective (Template.cut_first (paren_not_mem_name p) (paren_not_mem_name p') (List.cons.inj ht).2).1

def placeholders : Names Placeholder Char where
  all      := [.stream, .beam, .chunk, .nchunk, .binning, .fpga0, .fpgaN]
  text     := Placeholder.text
  opening  := '('
  complete := fun p => by cases p <;> decide
  begins   := fun p => ⟨p.name ++ [')'], rfl⟩
  apart    := text_apart

theorem slash_not_mem_text (p : Placeholder) : '/' ∉ p.text := by cases p <;> decide

theorem not_mem_value {c : Char} (hdigit : c.isDigit = false) (hminus : c ≠ '-') (k : AssembledChunk) (p : Placeholder) :
    c ∉ p.value k := by cases p <;> (unfold Placeholder.value; exact not_mem_formatInt hdigit hminus _ _)

/-- What `rpc.hpp` says of `format_filename`: it puts the values in the place of the placeholders, and a placeholder is
always within one directory's name. -/
structure FormatsAsDocumented (formatFilename : AssembledChunk → Filename → Filename) : Prop where
  path     : ∀ k f g, formatFilename k (f ++ '/' :: g) = formatFilename k f ++ '/' :: formatFilename k g
  plain    : ∀ k f, placeholders.Plain f → formatFilename k f = f
  replaced : ∀ k f, ¬ placeholders.Plain f → formatFilename k f ≠ f
  value    : ∀ k p f g, '(' ∉ f → '(' ∉ g → formatFilename k (f ++ (Placeholder.text p ++ g)) = f ++ (p.value k ++ g)

def fillFilename (k : AssembledChunk) (pattern : Filename) : Filename := fill placeholders (Placeholder.value k) pattern

theorem fillFilename_asDocumented : FormatsAsDocumented fillFilename where
  path     := fun _ f g => Template.fill_append_cons placeholders _ slash_not_mem_text f g
  plain    := fun _ _ h => Template.fill_plain placeholders _ h
  replaced := fun k _ h => Template.fill_ne placeholders _ (not_mem_value rfl (by decide) k) h
  value    := fun k p f g hf hg => by
    have hg' : fill placeholders (Placeholder.value k) g = g := by
      have happ := Template.fill_append_of_not_mem placeholders (Placeholder.value k) hg []
      rwa [List.append_nil, Template.fill_nil, List.append_nil] at happ
    unfold fillFilename
    rw [Template.fill_append_of_not_mem placeholders _ hf]
    show f ++ fill placeholders _ (placeholders.text p ++ g) = _
    rw [Template.fill_text, hg']

end FileUtils
end FrbL1
