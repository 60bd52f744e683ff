import Mathlib.Algebra.Ring.Int.Defs
import Mathlib.Algebra.Ring.Nat
import FrbL1.Digits
import FrbL1.InputStream
/-!
# ProcStat — what `get_statistics` reads from /proc/stat

One loop reads word after word: the first of a line is its key and the others are numbers, and a look at the next
character tells whether the line has ended.  For a text of such lines it sets one entry for each number that is not zero,
and nothing else (`getStatistics_sets`).
-/
namespace FrbL1
namespace ProcStat

open InputStream (IStream isSpace extract peek Blank Ends Word extract_word extract_blank)

/-- An `unordered_map<string, uint64_t>`. -/
abbrev Stats := List Char → Option Nat

def Stats.set (stats : Stats) (key : List Char) (value : Nat) : Stats := fun k => if k = key then some value else stats k

inductive Failure
  /-- By `stoll`. -/
  | invalidArgument
  | outOfRange
  /-- There is no `stats[0]`. -/
  | noStats
  /-- Of the `int` that counts the fields, where the behaviour is undefined. -/
  | overflow
  deriving DecidableEq

/-! ## The code -/

/-- `strtoll` takes the digits after blanks and a sign, whatever comes behind them. -/
def stoll (word : List Char) : Except Failure Int :=
  let text := word.dropWhile isSpace
  let (negative, text) := match text with
    | '-' :: text => (true, text)
    | '+' :: text => (false, text)
    | _           => (false, text)
  let digits := text.takeWhile Char.isDigit
  let n : Int := Nat.ofDigitChars 10 digits 0
  let value := if negative then -n else n
  if digits = [] then .error .invalidArgument
  else if value < -2 ^ 63 ∨ 2 ^ 63 ≤ value then .error .outOfRange
  else .ok value

/-- The conversion to `uint64_t`. -/
def toUint64 (n : Int) : Nat := (n % 2 ^ 64).toNat

def fullkey (key : List Char) (arrayi : Nat) : List Char :=
  "procstat_".toList ++ key ++ "_".toList ++ Nat.toDigits 10 arrayi

def procstatTime : List Char := "procstat_time".toList

/-- The variables of the loop, and `stats[0]`. -/
structure Loop where
  key    : List Char
  arrayi : Nat
  stats  : Stats

def Loop.word (l : Loop) (word : List Char) : Except Failure Loop :=
  if l.key = [] then .ok { l with key := word, arrayi := 0 }
  else do
    let ival := toUint64 (← stoll word)
    let stats := if ival ≠ 0 then l.stats.set (fullkey l.key l.arrayi) ival else l.stats
    if 2 ^ 31 ≤ l.arrayi + 1 then .error .overflow
    else return { l with arrayi := l.arrayi + 1, stats }

def Loop.peeked (l : Loop) (c : Option Char) : Loop :=
  if c = some '\n' then { l with key := [] } else l

def scan (s : IStream) (l : Loop) : Except Failure Stats :=
  if _hgood : s.good then
    if _hword : (extract s).1 = [] ∧ (extract s).2.eofbit then .ok l.stats
    else match l.word (extract s).1 with
      | .error e => .error e
      | .ok l    => scan (peek (extract s).2).2 (l.peeked (peek (extract s).2).1)
  else .ok l.stats
termination_by s.rest.length
decreasing_by
  rw [InputStream.peek_rest]
  exact InputStream.extract_lt _hgood _hword

/-- The part of `get_statistics` about /proc/stat; `time` is what the time since `_time0` is, in jiffies. -/
def getStatistics (file : Option (List Char)) (time : Nat) : List Stats → Except Failure (List Stats)
  | []            => .error .noStats
  | stats :: rest => (scan (.ofFile file) ⟨[], 0, stats.set procstatTime time⟩).map (· :: rest)

/-! ## The text -/

structure Field where
  digits   : List Char
  nonempty : digits ≠ []
  isDigit  : ∀ c ∈ digits, c.isDigit = true
  lt       : Nat.ofDigitChars 10 digits 0 < 2 ^ 63

def Field.value (f : Field) : Nat := Nat.ofDigitChars 10 f.digits 0

structure Blanks where
  chars    : List Char
  nonempty : chars ≠ []
  blank    : ∀ c ∈ chars, isSpace c = true ∧ c ≠ '\n'

/-- A key and fields, as many as an `int` counts. -/
structure Line where
  key    : List Char
  word   : Word key
  fields : List (Blanks × Field)
  lt     : fields.length < 2 ^ 31

def fieldsText (fields : List (Blanks × Field)) : List Char := fields.flatMap (fun f => f.1.chars ++ f.2.digits)

def Line.text (l : Line) : List Char := l.key ++ fieldsText l.fields

/-- Lines, with a newline behind each but maybe the last. -/
def text (newline : Bool) : List Line → List Char
  | []      => []
  | l :: ls => l.text ++ if ls = [] ∧ newline = false then [] else '\n' :: text newline ls

/-- Field `i` of a line, if it is not zero. -/
def Line.Has (l : Line) (i value : Nat) : Prop := ∃ f, l.fields[i]? = some f ∧ f.2.value = value ∧ value ≠ 0

/-- **The entries are those of the fields that are not zero**, later lines of a key overriding. -/
structure Sets (lines : List Line) (time : Nat) (before after : Stats) : Prop where
  time   : after procstatTime = some time
  fields : ∀ ls line ls' i value, lines = ls ++ line :: ls' → line.Has i value →
    (∀ l ∈ ls', l.key = line.key → ∀ v, ¬ l.Has i v) → after (fullkey line.key i) = some value
  others : ∀ name, name ≠ procstatTime → (∀ line ∈ lines, ∀ i v, line.Has i v → name ≠ fullkey line.key i) →
    after name = before name

/-! ## A word -/

theorem not_isSpace_of_isDigit {c : Char} (h : c.isDigit = true) : isSpace c = false := by
  have hlo : 48 ≤ c.toNat := (Bool.and_eq_true_iff.1 h).1 |> of_decide_eq_true
  unfold isSpace
  rw [decide_eq_false_iff_not]
  rintro (rfl | ⟨-, hle⟩)
  · exact absurd hlo (by decide)
  · have hle' : c.toNat ≤ 13 := hle
    omega

theorem Field.word (f : Field) : Word f.digits := ⟨f.nonempty, fun c hc => not_isSpace_of_isDigit (f.isDigit c hc)⟩

theorem stoll_field (f : Field) : stoll f.digits = .ok (f.value : Int) := by
  obtain ⟨c, digits, hdigits⟩ := List.exists_cons_of_ne_nil f.nonempty
  have hc : c.isDigit = true := f.isDigit c (hdigits ▸ .head _)
  have hskip : f.digits.dropWhile isSpace = f.digits := by
    rw [hdigits, List.dropWhile_cons_of_neg (by rw [not_isSpace_of_isDigit hc]; decide)]
  have hall : f.digits.takeWhile Char.isDigit = f.digits := List.takeWhile_eq_self_iff.2 f.isDigit
  have hsign : (match f.digits with
      | '-' :: text => (true, text)
      | '+' :: text => (false, text)
      | _           => (false, f.digits)) = (false, f.digits) := by
    rw [hdigits]
    split
    · rename_i heq
      rw [(List.cons.inj heq).1] at hc
      exact absurd hc (by decide)
    · rename_i heq
      rw [(List.cons.inj heq).1] at hc
      exact absurd hc (by decide)
    · rfl
  have hlt : f.value < 2 ^ 63 := f.lt
  unfold stoll
  simp only [hskip, hsign, hall, if_neg f.nonempty]
  exact if_neg (fun h => by
    unfold Field.value at hlt
    simp only [Bool.false_eq_true, if_false] at h
    omega)

theorem toUint64_value (f : Field) : toUint64 f.value = f.value := by
  have hlt : f.value < 2 ^ 63 := f.lt
  unfold toUint64
  omega

/-! ## The loop -/

def Loop.field (l : Loop) (f : Field) : Loop where
  key    := l.key
  arrayi := l.arrayi + 1
  stats  := if f.value ≠ 0 then l.stats.set (fullkey l.key l.arrayi) f.value else l.stats

def Loop.line (l : Loop) (fields : List (Blanks × Field)) : Loop := fields.foldl (fun l f => l.field f.2) l

theorem word_field {l : Loop} (h : l.key ≠ []) (hlt : l.arrayi + 1 < 2 ^ 31) (f : Field) :
    l.word f.digits = .ok (l.field f) := by
  unfold Loop.word
  rw [if_neg h, stoll_field f]
  show (if _ then _ else _) = _
  rw [if_neg (not_le.2 hlt), toUint64_value f]
  rfl

theorem word_key {l : Loop} (h : l.key = []) (key : List Char) : l.word key = .ok { l with key := key, arrayi := 0 } :=
  if_pos h

def behind (l : Loop) (rest : List Char) : Except Failure Stats :=
  scan (peek ⟨rest, rest.isEmpty, false⟩).2 (l.peeked (peek ⟨rest, rest.isEmpty, false⟩).1)

theorem behind_nil (l : Loop) : behind l [] = .ok l.stats := by
  unfold behind
  rw [scan]
  rfl

theorem behind_newline (l : Loop) (rest : List Char) :
    behind l ('\n' :: rest) = scan ⟨'\n' :: rest, false, false⟩ { l with key := [] } := rfl

theorem behind_cons (l : Loop) {c : Char} (rest : List Char) (hc : c ≠ '\n') :
    behind l (c :: rest) = scan ⟨c :: rest, false, false⟩ l := by
  have hpeeked : l.peeked (some c) = l := if_neg (fun h => hc (Option.some.inj h))
  exact congrArg (scan _) hpeeked

theorem scan_word {l l' : Loop} {blank word rest : List Char} (hblank : Blank blank) (hword : Word word)
    (hrest : Ends rest) (h : l.word word = .ok l') :
    scan ⟨blank ++ (word ++ rest), false, false⟩ l = behind l' rest := by
  have hgood : (⟨blank ++ (word ++ rest), false, false⟩ : IStream).good = true := rfl
  rw [scan, dif_pos hgood, dif_neg]
  · simp only [extract_word hblank hword hrest, h]
    rfl
  · rw [extract_word hblank hword hrest]
    exact fun h => hword.nonempty h.1

theorem scan_blank {l : Loop} {blank : List Char} (hblank : Blank blank) :
    scan ⟨blank, false, false⟩ l = .ok l.stats := by
  have hgood : (⟨blank, false, false⟩ : IStream).good = true := rfl
  rw [scan, dif_pos hgood, dif_pos]
  rw [extract_blank hblank]
  exact ⟨rfl, rfl⟩

theorem ends_fieldsText {fields : List (Blanks × Field)} {rest : List Char} (hrest : Ends rest) :
    Ends (fieldsText fields ++ rest) := by
  cases fields with
  | nil => exact hrest
  | cons f fields =>
    obtain ⟨c, chars, hchars⟩ := List.exists_cons_of_ne_nil f.1.nonempty
    intro d hd
    have hmem : d ∈ f.1.chars := by
      rw [hchars]
      simp only [fieldsText, List.flatMap_cons, hchars, List.cons_append, List.head?_cons, Option.mem_some_iff] at hd
      exact hd ▸ .head _
    exact (f.1.blank d hmem).1

theorem behind_fields : ∀ (fields : List (Blanks × Field)) (l : Loop) (rest : List Char), l.key ≠ [] →
    l.arrayi + fields.length < 2 ^ 31 → Ends rest →
    behind l (fieldsText fields ++ rest) = behind (l.line fields) rest
  | [], _, _, _, _, _ => rfl
  | f :: fields, l, rest, hkey, hlt, hrest => by
    have hnext : l.arrayi + 1 + fields.length < 2 ^ 31 := by
      rwa [List.length_cons, ← Nat.add_assoc, Nat.add_right_comm] at hlt
    obtain ⟨c, chars, hchars⟩ := List.exists_cons_of_ne_nil f.1.nonempty
    have hc : c ≠ '\n' := (f.1.blank c (hchars ▸ .head _)).2
    have htext : fieldsText (f :: fields) ++ rest = f.1.chars ++ (f.2.digits ++ (fieldsText fields ++ rest)) := by
      simp only [fieldsText, List.flatMap_cons, List.append_assoc]
    rw [htext, hchars, List.cons_append, behind_cons l _ hc, ← List.cons_append, ← hchars,
      scan_word (fun d hd => (f.1.blank d hd).1) f.2.word (ends_fieldsText hrest)
        (word_field hkey ((Nat.le_add_right _ _).trans_lt hnext) f.2),
      behind_fields fields (l.field f.2) rest hkey hnext hrest]
    rfl

def Line.enter (stats : Stats) (l : Line) : Stats := (Loop.line ⟨l.key, 0, stats⟩ l.fields).stats

theorem ends_newline (rest : List Char) : Ends ('\n' :: rest) := by
  intro c hc
  obtain rfl := Option.mem_some_iff.1 hc
  rfl

theorem scan_lines : ∀ (newline : Bool) (lines : List Line) (blank : List Char) (l : Loop), Blank blank → l.key = [] →
    scan ⟨blank ++ text newline lines, false, false⟩ l = .ok (lines.foldl Line.enter l.stats)
  | newline, [], blank, l, hblank, _ => by
    rw [text, List.append_nil]
    exact scan_blank hblank
  | newline, line :: lines, blank, l, hblank, hkey => by
    have hends : Ends (if lines = [] ∧ newline = false then [] else '\n' :: text newline lines) := by
      split
      · exact fun c hc => nomatch hc
      · exact ends_newline _
    rw [text, Line.text, List.append_assoc,
      scan_word hblank line.word (ends_fieldsText hends) (word_key hkey line.key),
      behind_fields line.fields _ _ line.word.nonempty (by rw [Nat.zero_add]; exact line.lt) hends]
    split
    · rename_i hlast
      rw [behind_nil, hlast.1]
      rfl
    · rw [behind_newline]
      exact scan_lines newline lines ['\n'] _ (fun c hc => List.mem_singleton.1 hc ▸ rfl) rfl

/-! ## The entries -/

theorem fullkey_eq (key : List Char) (i : Nat) :
    fullkey key i = "procstat_".toList ++ (key ++ '_' :: Nat.toDigits 10 i) := by
  unfold fullkey
  rw [List.append_assoc, List.append_assoc]
  rfl

theorem fullkey_inj {key key' : List Char} {i i' : Nat} (h : fullkey key i = fullkey key' i') : key = key' ∧ i = i' := by
  rw [fullkey_eq, fullkey_eq] at h
  obtain ⟨hkey, -, hi⟩ := Digits.cut rfl rfl (List.append_cancel_left h)
  exact ⟨hkey, hi⟩

theorem fullkey_ne_procstatTime (key : List Char) (i : Nat) : fullkey key i ≠ procstatTime := by
  intro h
  have htime : procstatTime = "procstat_".toList ++ "time".toList := rfl
  rw [fullkey_eq, htime] at h
  have hmem : '_' ∈ "time".toList := by
    rw [← List.append_cancel_left h]
    exact List.mem_append_right _ (.head _)
  exact absurd hmem (by decide)

theorem Stats.set_of_ne {stats : Stats} {key k : List Char} (h : k ≠ key) (value : Nat) :
    stats.set key value k = stats k := if_neg h

theorem Stats.set_self (stats : Stats) (key : List Char) (value : Nat) : stats.set key value key = some value := if_pos rfl

theorem line_stats_other : ∀ (fields : List (Blanks × Field)) (l : Loop) (name : List Char),
    (∀ j f, fields[j]? = some f → f.2.value ≠ 0 → name ≠ fullkey l.key (l.arrayi + j)) →
      (l.line fields).stats name = l.stats name
  | [], _, _, _ => rfl
  | f :: fields, l, name, h => by
    refine (line_stats_other fields (l.field f.2) name (fun j g hg hne => ?_)).trans ?_
    · have hname := h (j + 1) g hg hne
      rwa [← Nat.add_assoc, Nat.add_right_comm] at hname
    · unfold Loop.field
      split
      · rename_i hne
        exact Stats.set_of_ne (h 0 f rfl hne) _
      · rfl

theorem line_stats_set : ∀ (fields : List (Blanks × Field)) (l : Loop) (j : Nat) (f : Blanks × Field),
    fields[j]? = some f → f.2.value ≠ 0 → (l.line fields).stats (fullkey l.key (l.arrayi + j)) = some f.2.value
  | f :: fields, l, 0, g, hg, hne => by
    obtain rfl := Option.some.inj hg
    refine (line_stats_other fields (l.field f.2) _ (fun j g hg hne heq => ?_)).trans ?_
    · have hi : l.arrayi + 0 = l.arrayi + 1 + j := (fullkey_inj heq).2
      omega
    · unfold Loop.field
      rw [if_pos hne]
      exact Stats.set_self _ _ _
  | f :: fields, l, j + 1, g, hg, hne => by
    have hset := line_stats_set fields (l.field f.2) j g hg hne
    unfold Loop.field at hset
    rwa [Nat.add_right_comm, Nat.add_assoc] at hset

namespace Line

theorem enter_has {l : Line} {i value : Nat} (h : l.Has i value) (stats : Stats) :
    l.enter stats (fullkey l.key i) = some value := by
  obtain ⟨f, hf, rfl, hne⟩ := h
  have hset := line_stats_set l.fields ⟨l.key, 0, stats⟩ i f hf hne
  rwa [Nat.zero_add] at hset

theorem enter_other {l : Line} {name : List Char} (h : ∀ i v, l.Has i v → name ≠ fullkey l.key i) (stats : Stats) :
    l.enter stats name = stats name := by
  refine line_stats_other l.fields ⟨l.key, 0, stats⟩ name (fun j f hf hne => ?_)
  rw [Nat.zero_add]
  exact h j f.2.value ⟨f, hf, rfl, hne⟩

end Line

theorem enters_other {name : List Char} : ∀ {lines : List Line} {stats : Stats},
    (∀ l ∈ lines, ∀ i v, l.Has i v → name ≠ fullkey l.key i) → lines.foldl Line.enter stats name = stats name
  | [],     _, _ => rfl
  | l :: _, _, h =>
    (enters_other (fun l' hl' => h l' (.tail _ hl'))).trans (Line.enter_other (h l (.head _)) _)

theorem sets_enters (lines : List Line) (time : Nat) (before : Stats) :
    Sets lines time before (lines.foldl Line.enter (before.set procstatTime time)) where
  time   := by
    rw [enters_other (fun l _ i _ _ => (fullkey_ne_procstatTime l.key i).symm)]
    exact Stats.set_self _ _ _
  fields := by
    rintro ls line ls' i value rfl hhas hlast
    rw [List.foldl_append, List.foldl_cons, enters_other, Line.enter_has hhas]
    intro l hl j v hv heq
    obtain ⟨hkey, rfl⟩ := fullkey_inj heq
    exact hlast l hl hkey.symm v hv
  others := by
    intro name htime hnone
    rw [enters_other hnone]
    exact Stats.set_of_ne htime _

/-- **Any such text is read without an error**, and sets the entries of its fields in `stats[0]`. -/
theorem getStatistics_sets (newline : Bool) (lines : List Line) (time : Nat) (before : Stats) (rest : List Stats) :
    ∃ after, getStatistics (some (text newline lines)) time (before :: rest) = .ok (after :: rest) ∧
      Sets lines time before after := by
  refine ⟨_, ?_, sets_enters lines time before⟩
  have hscan := scan_lines newline lines [] ⟨[], 0, before.set procstatTime time⟩ (fun c hc => nomatch hc) rfl
  exact congrArg (Except.map (· :: rest)) hscan

end ProcStat
end FrbL1
