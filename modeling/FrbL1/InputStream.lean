import Mathlib.Data.List.TakeWhile
/-!
# InputStream — words of a text, with the state of the stream

`extract` and `peek` are what `>>` and `peek()` do with a stream of characters and with its state bits.  A word that ends
where the text ends sets `eofbit`; only if there is none at all does `>>` fail.
-/
namespace InputStream

structure IStream where
  rest    : List Char
  eofbit  : Bool
  failbit : Bool

def IStream.ofFile : Option (List Char) → IStream
  | some text => ⟨text, false, false⟩
  | none      => ⟨[], false, true⟩

def IStream.good (s : IStream) : Bool := !s.eofbit && !s.failbit

def isSpace (c : Char) : Bool := c = ' ' ∨ '\t' ≤ c ∧ c ≤ '\r'

/-- `s >> word`, for an empty `word`. -/
def extract (s : IStream) : List Char × IStream :=
  if s.good then
    match s.rest.dropWhile isSpace with
    | []   => ([], ⟨[], true, true⟩)
    | text =>
      let rest := text.dropWhile (!isSpace ·)
      (text.takeWhile (!isSpace ·), ⟨rest, rest.isEmpty, false⟩)
  else ([], { s with failbit := true })

def peek (s : IStream) : Option Char × IStream :=
  if s.good then
    match s.rest with
    | []     => (none, { s with eofbit := true })
    | c :: _ => (some c, s)
  else (none, { s with failbit := true })

def Blank (text : List Char) : Prop := ∀ c ∈ text, isSpace c = true

/-- What is behind a word: nothing, or something that begins with a blank. -/
def Ends (text : List Char) : Prop := ∀ c ∈ text.head?, isSpace c = true

structure Word (text : List Char) : Prop where
  nonempty : text ≠ []
  no_space : ∀ c ∈ text, isSpace c = false

theorem extract_of_good {s : IStream} (h : s.good = true) : extract s = match s.rest.dropWhile isSpace with
    | []   => ([], ⟨[], true, true⟩)
    | text =>
      let rest := text.dropWhile (!isSpace ·)
      (text.takeWhile (!isSpace ·), ⟨rest, rest.isEmpty, false⟩) := if_pos h

theorem takeWhile_of_ends {text : List Char} (h : Ends text) : text.takeWhile (!isSpace ·) = [] := by
  cases text with
  | nil => rfl
  | cons c text => rw [List.takeWhile_cons_of_neg (by rw [h c rfl]; decide)]

theorem dropWhile_of_ends {text : List Char} (h : Ends text) : text.dropWhile (!isSpace ·) = text := by
  cases text with
  | nil => rfl
  | cons c text => rw [List.dropWhile_cons_of_neg (by rw [h c rfl]; decide)]

theorem extract_word {blank word rest : List Char} (hblank : Blank blank) (hword : Word word) (hrest : Ends rest) :
    extract ⟨blank ++ (word ++ rest), false, false⟩ = (word, ⟨rest, rest.isEmpty, false⟩) := by
  have hnone : ∀ c ∈ word, (!isSpace c) = true := fun c hc => by rw [hword.no_space c hc]; rfl
  have hskip : (blank ++ (word ++ rest)).dropWhile isSpace = word ++ rest := by
    rw [List.dropWhile_append_of_pos hblank]
    obtain ⟨c, word, rfl⟩ := List.exists_cons_of_ne_nil hword.nonempty
    exact List.dropWhile_cons_of_neg (by rw [hword.no_space c (.head _)]; decide)
  rw [extract_of_good rfl, hskip]
  split
  · rename_i hnil
    exact absurd (List.append_eq_nil_iff.1 hnil).1 hword.nonempty
  · rw [List.takeWhile_append_of_pos hnone, List.dropWhile_append_of_pos hnone, takeWhile_of_ends hrest,
      dropWhile_of_ends hrest, List.append_nil]

theorem extract_blank {blank : List Char} (hblank : Blank blank) :
    extract ⟨blank, false, false⟩ = ([], ⟨[], true, true⟩) := by
  have hskip : blank.dropWhile isSpace = [] := List.dropWhile_eq_nil_iff.2 hblank
  rw [extract_of_good rfl, hskip]

theorem extract_lt {s : IStream} (hgood : s.good = true) (h : ¬ ((extract s).1 = [] ∧ (extract s).2.eofbit = true)) :
    (extract s).2.rest.length < s.rest.length := by
  rw [extract_of_good hgood] at h ⊢
  cases hskip : s.rest.dropWhile isSpace with
  | nil =>
    rw [hskip] at h
    exact absurd ⟨rfl, rfl⟩ h
  | cons c text =>
    have hc : isSpace c = false := by
      have hhead := List.head?_dropWhile_not isSpace s.rest
      rwa [hskip] at hhead
    have hle : (c :: text).length ≤ s.rest.length := hskip ▸ (List.dropWhile_suffix isSpace).length_le
    have hdrop : (c :: text).dropWhile (!isSpace ·) = text.dropWhile (!isSpace ·) :=
      List.dropWhile_cons_of_pos (by rw [hc]; rfl)
    have hlt : (text.dropWhile (!isSpace ·)).length ≤ text.length := (List.dropWhile_suffix _).length_le
    rw [List.length_cons] at hle
    simp only [hdrop]
    omega

theorem peek_rest (s : IStream) : (peek s).2.rest = s.rest := by
  unfold peek
  split
  · split <;> rfl
  · rfl

end InputStream
