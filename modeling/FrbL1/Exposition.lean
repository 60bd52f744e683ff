import Mathlib.Data.List.TakeWhile
import Mathlib.Data.List.Nodup
/-!
# Exposition — metrics as text

The text that a scraper reads: for each metric a line with its description, a line with its kind, and then its samples,
each with labels and a value.  Label values stand in quotes, and a reader takes `\\`, `\"` and `\n` in them for one
character.  A writer that does not escape them is understood exactly if none of them has a quote, a backslash or an end
of line (`readEntries_iff`).  Of the format the escapes in a description and the time stamps of samples are left out.
-/
namespace Exposition

abbrev Text := List Char

structure Sample where
  name   : Text
  labels : List (Text × Text)
  value  : Text
  deriving DecidableEq

inductive Entry
  | help (name doc : Text)
  | type (name kind : Text)
  | sample (s : Sample)
  deriving DecidableEq

def helpMark : Text := ['#', ' ', 'H', 'E', 'L', 'P', ' ']
def typeMark : Text := ['#', ' ', 'T', 'Y', 'P', 'E', ' ']

/-! ## The reader -/

def isNameChar (c : Char) : Bool := c.isAlphanum || c == '_' || c == ':'

def expect : Text → Text → Option Text
  | [],     t      => some t
  | _ :: _, []     => none
  | c :: u, d :: t => if c = d then expect u t else none

def readName (t : Text) : Option (Text × Text) :=
  if t.takeWhile isNameChar = [] then none else some (t.takeWhile isNameChar, t.dropWhile isNameChar)

def readLine (t : Text) : Option (Text × Text) :=
  (expect ['\n'] (t.dropWhile (· != '\n'))).map (t.takeWhile (· != '\n'), ·)

/-- A label value, as far as the quote at its end. -/
def readValue : Text → Option (Text × Text)
  | []               => none
  | '"' :: t         => some ([], t)
  | '\\' :: '\\' :: t => (readValue t).map (fun r => ('\\' :: r.1, r.2))
  | '\\' :: '"' :: t  => (readValue t).map (fun r => ('"' :: r.1, r.2))
  | '\\' :: 'n' :: t  => (readValue t).map (fun r => ('\n' :: r.1, r.2))
  | '\\' :: _        => none
  | '\n' :: _        => none
  | c :: t           => (readValue t).map (fun r => (c :: r.1, r.2))

def readPairs : Nat → Text → Option (List (Text × Text) × Text)
  | 0,     _ => none
  | n + 1, t => do
    let (name, t) ← readName t
    let t ← expect ['=', '"'] t
    let (value, t) ← readValue t
    match t with
    | ',' :: t =>
      let (labels, t) ← readPairs n t
      return ((name, value) :: labels, t)
    | '}' :: t => return ([(name, value)], t)
    | _        => none

def readLabels : Text → Option (List (Text × Text) × Text)
  | '{' :: t => readPairs t.length t
  | t        => some ([], t)

def readSample (t : Text) : Option (Sample × Text) := do
  let (name, t) ← readName t
  let (labels, t) ← readLabels t
  let t ← expect [' '] t
  let (value, t) ← readLine t
  if value = [] ∨ ' ' ∈ value then none
  else return (⟨name, labels, value⟩, t)

def readEntry (t : Text) : Option (Entry × Text) :=
  match expect helpMark t, expect typeMark t with
  | some t, _ => do
    let (name, t) ← readName t
    let t ← expect [' '] t
    let (doc, t) ← readLine t
    return (.help name doc, t)
  | none, some t => do
    let (name, t) ← readName t
    let t ← expect [' '] t
    let (kind, t) ← readLine t
    return (.type name kind, t)
  | none, none => (readSample t).map (fun r => (.sample r.1, r.2))

def readLines : Nat → Text → Option (List Entry)
  | _,     []     => some []
  | 0,     _ :: _ => none
  | n + 1, c :: t => do
    let (e, t) ← readEntry (c :: t)
    let es ← readLines n t
    return e :: es

def readEntries (t : Text) : Option (List Entry) := readLines t.length t

/-! ## A writer that does not escape -/

def pairsText : List (Text × Text) → Text
  | []            => []
  | [(k, v)]      => k ++ '=' :: '"' :: v ++ ['"']
  | (k, v) :: ls  => k ++ '=' :: '"' :: v ++ '"' :: ',' :: pairsText ls

def labelsText (labels : List (Text × Text)) : Text := if labels = [] then [] else '{' :: pairsText labels ++ ['}']

def Entry.text : Entry → Text
  | .help name doc  => helpMark ++ name ++ ' ' :: doc ++ ['\n']
  | .type name kind => typeMark ++ name ++ ' ' :: kind ++ ['\n']
  | .sample s       => s.name ++ labelsText s.labels ++ ' ' :: s.value ++ ['\n']

structure IsName (name : Text) : Prop where
  nonempty : name ≠ []
  chars    : ∀ c ∈ name, isNameChar c = true

instance (name : Text) : Decidable (IsName name) :=
  decidable_of_iff (name ≠ [] ∧ name.all isNameChar = true)
    ⟨fun h => ⟨h.1, List.all_eq_true.1 h.2⟩, fun h => ⟨h.nonempty, List.all_eq_true.2 h.chars⟩⟩

/-- Everything but the label values is as it has to be. -/
def Entry.Printable : Entry → Prop
  | .help name doc  => IsName name ∧ '\n' ∉ doc
  | .type name kind => IsName name ∧ '\n' ∉ kind
  | .sample s       => IsName s.name ∧ (∀ l ∈ s.labels, IsName l.1) ∧ s.value ≠ [] ∧ ' ' ∉ s.value ∧ '\n' ∉ s.value

def Clean (v : Text) : Prop := ∀ c ∈ v, c ≠ '"' ∧ c ≠ '\\' ∧ c ≠ '\n'

instance (v : Text) : Decidable (Clean v) :=
  decidable_of_iff (v.all (fun c => decide (c ≠ '"' ∧ c ≠ '\\' ∧ c ≠ '\n')) = true)
    (by simp only [List.all_eq_true, decide_eq_true_eq, Clean])

def Entry.Clean : Entry → Prop
  | .sample s => ∀ l ∈ s.labels, Exposition.Clean l.2
  | _         => True

/-! ## Pieces of a line -/

theorem expect_append : ∀ (u t : Text), expect u (u ++ t) = some t
  | [],     _ => rfl
  | c :: u, t => by rw [List.cons_append, expect, if_pos rfl, expect_append u t]

theorem takeWhile_boundary {p : Char → Bool} {u t : Text} (hu : ∀ c ∈ u, p c = true) (ht : ∀ c ∈ t.head?, p c = false) :
    (u ++ t).takeWhile p = u ∧ (u ++ t).dropWhile p = t := by
  rw [List.takeWhile_append_of_pos hu, List.dropWhile_append_of_pos hu]
  cases t with
  | nil => simp
  | cons c t =>
    have hc : p c = false := ht c rfl
    simp [hc]

theorem readName_append {name t : Text} (hname : IsName name) (ht : ∀ c ∈ t.head?, isNameChar c = false) :
    readName (name ++ t) = some (name, t) := by
  obtain ⟨htake, hdrop⟩ := takeWhile_boundary hname.chars ht
  rw [readName, htake, hdrop, if_neg hname.nonempty]

theorem readLine_append {u : Text} (hu : '\n' ∉ u) (t : Text) : readLine (u ++ '\n' :: t) = some (u, t) := by
  obtain ⟨htake, hdrop⟩ := takeWhile_boundary (p := (· != '\n')) (u := u) (t := '\n' :: t)
    (fun c hc => by
      have hne : c ≠ '\n' := fun h => hu (h ▸ hc)
      simpa using hne)
    (fun c hc => by
      obtain rfl := Option.some.inj hc
      rfl)
  rw [readLine, htake, hdrop]
  rfl

/-! ## Label values -/

theorem readValue_cons {c : Char} (h : c ≠ '"' ∧ c ≠ '\\' ∧ c ≠ '\n') (t : Text) :
    readValue (c :: t) = (readValue t).map (fun r => (c :: r.1, r.2)) := by
  obtain ⟨hq, hb, hn⟩ := h
  rw [readValue.eq_def]
  split <;> simp_all

theorem readValue_append {v : Text} (hv : Clean v) (t : Text) : readValue (v ++ '"' :: t) = some (v, t) := by
  induction v with
  | nil => rfl
  | cons c v ih =>
    rw [List.cons_append, readValue_cons (hv c (.head _)), ih (fun d hd => hv d (.tail _ hd))]
    rfl

theorem readValue_backslash {t : Text} {r : Text × Text} (h : readValue ('\\' :: t) = some r) : ∃ c d t' r',
    t = c :: t' ∧ readValue t' = some r' ∧ r = (d :: r'.1, r'.2) ∧ (d = '\\' → c = '\\') := by
  rw [readValue.eq_def] at h
  split at h
  · rename_i heq
    cases heq
  · rename_i heq
    exact absurd (List.cons.inj heq).1 (by decide)
  · rename_i t' heq
    obtain ⟨r', hr', rfl⟩ := Option.map_eq_some_iff.1 h
    exact ⟨_, _, t', r', (List.cons.inj heq).2, hr', rfl, fun _ => rfl⟩
  · rename_i t' heq
    obtain ⟨r', hr', rfl⟩ := Option.map_eq_some_iff.1 h
    exact ⟨_, _, t', r', (List.cons.inj heq).2, hr', rfl, fun hd => absurd hd (by decide)⟩
  · rename_i t' heq
    obtain ⟨r', hr', rfl⟩ := Option.map_eq_some_iff.1 h
    exact ⟨_, _, t', r', (List.cons.inj heq).2, hr', rfl, fun hd => absurd hd (by decide)⟩
  · cases h
  · cases h
  · rename_i hne _ heq
    exact absurd (List.cons.inj heq).1.symm (by rintro rfl; simp_all)

/-- A reader that is some backslashes behind does not catch up. -/
theorem readValue_ne_behind : ∀ (v : Text) (k : Nat) (t r : Text),
    readValue (v ++ '"' :: t) ≠ some (List.replicate (k + 1) '\\' ++ v, r)
  | [],     k, t, r, h => by
    have hnil := congrArg Prod.fst (Option.some.inj h)
    simp [List.replicate_succ] at hnil
  | c :: v, k, t, r, h => by
    rw [List.replicate_succ, List.cons_append, List.cons_append] at h
    by_cases hq : c = '"'
    · subst hq
      have hnil := congrArg Prod.fst (Option.some.inj h)
      cases hnil
    · by_cases hb : c = '\\'
      · subst hb
        obtain ⟨c', d, t', r', ht', hr', hr, hd⟩ := readValue_backslash h
        obtain ⟨hhead, htail⟩ := List.cons.inj (congrArg Prod.fst hr)
        obtain rfl := hd hhead.symm
        cases v with
        | nil => exact absurd (List.cons.inj ht').1 (by decide)
        | cons c v =>
          obtain ⟨rfl, rfl⟩ := List.cons.inj ht'
          refine readValue_ne_behind v (k + 1) t r'.2 (hr'.trans (congrArg some (Prod.ext ?_ rfl)))
          show r'.1 = _
          rw [← htail, List.replicate_succ', List.replicate_succ', List.append_assoc, List.append_assoc]
          rfl
      · by_cases hn : c = '\n'
        · subst hn
          cases h
        · rw [readValue_cons ⟨hq, hb, hn⟩] at h
          obtain ⟨r', -, hr⟩ := Option.map_eq_some_iff.1 h
          exact hb (List.cons.inj (congrArg Prod.fst hr)).1

theorem clean_of_readValue : ∀ (v t r : Text), readValue (v ++ '"' :: t) = some (v, r) → Clean v
  | [],     t, r, _ => fun _ hc => nomatch hc
  | c :: v, t, r, h => by
    rw [List.cons_append] at h
    have hq : c ≠ '"' := by
      rintro rfl
      cases congrArg Prod.fst (Option.some.inj h)
    have hn : c ≠ '\n' := by
      rintro rfl
      cases h
    have hb : c ≠ '\\' := by
      rintro rfl
      obtain ⟨c', d, t', r', ht', hr', hr, hd⟩ := readValue_backslash h
      obtain ⟨hhead, htail⟩ := List.cons.inj (congrArg Prod.fst hr)
      obtain rfl := hd hhead.symm
      cases v with
      | nil => exact absurd (List.cons.inj ht').1 (by decide)
      | cons c v =>
        obtain ⟨rfl, rfl⟩ := List.cons.inj ht'
        exact readValue_ne_behind v 0 t r'.2 (hr'.trans (congrArg some (Prod.ext htail.symm rfl)))
    rw [readValue_cons ⟨hq, hb, hn⟩] at h
    obtain ⟨r', hr', hr⟩ := Option.map_eq_some_iff.1 h
    have hv : r'.1 = v := (List.cons.inj (congrArg Prod.fst hr)).2
    have hclean := clean_of_readValue v t r'.2 (hr'.trans (congrArg some (Prod.ext hv rfl)))
    intro d hd
    rcases List.mem_cons.1 hd with rfl | hd
    · exact ⟨hq, hb, hn⟩
    · exact hclean d hd

/-- **A label value is understood exactly if it needs no escapes.** -/
theorem readValue_iff {v t r : Text} : readValue (v ++ '"' :: t) = some (v, r) ↔ Clean v ∧ r = t := by
  constructor
  · intro h
    have hv := clean_of_readValue v t r h
    rw [readValue_append hv] at h
    exact ⟨hv, (congrArg Prod.snd (Option.some.inj h)).symm⟩
  · rintro ⟨hv, rfl⟩
    exact readValue_append hv r

/-! ## Labels and samples -/

theorem head?_quote (t : Text) : ∀ c ∈ ('=' :: t).head?, isNameChar c = false := by
  intro c hc
  obtain rfl := Option.some.inj hc
  decide

theorem readPairs_succ {name : Text} (h : IsName name) (n : Nat) (t : Text) :
    readPairs (n + 1) (name ++ '=' :: '"' :: t) = (readValue t).bind (fun x =>
      match x.2 with
      | ',' :: t => (readPairs n t).map (fun y => ((name, x.1) :: y.1, y.2))
      | '}' :: t => some ([(name, x.1)], t)
      | _        => none) := by
  have hexpect : expect ['=', '"'] ('=' :: '"' :: t) = some t := expect_append ['=', '"'] t
  rw [readPairs, readName_append h (head?_quote _), Option.bind_eq_bind, Option.bind_some]
  simp only [hexpect, Option.bind_eq_bind, Option.bind_some]
  cases readValue t with
  | none => rfl
  | some x =>
    simp only [Option.bind_some]
    split
    · rename_i t' _
      cases readPairs n t' <;> rfl
    · rfl
    · rfl

theorem readPairs_first {name v r : Text} {ls : List (Text × Text)} {n : Nat} {x : Option (Text × Text)}
    (h : x.bind (fun x =>
      match x.2 with
      | ',' :: t => (readPairs n t).map (fun y => ((name, x.1) :: y.1, y.2))
      | '}' :: t => some ([(name, x.1)], t)
      | _        => none) = some ((name, v) :: ls, r)) :
    ∃ u, x = some (v, u) ∧ (match u with
      | ',' :: t => (readPairs n t).map (fun y => ((name, v) :: y.1, y.2))
      | '}' :: t => some ([(name, v)], t)
      | _        => none) = some ((name, v) :: ls, r) := by
  obtain ⟨⟨v', u⟩, hx, h⟩ := Option.bind_eq_some_iff.1 h
  have hv : v' = v := by
    simp only at h
    split at h
    · obtain ⟨y, -, hy⟩ := Option.map_eq_some_iff.1 h
      exact congrArg Prod.snd (List.cons.inj (congrArg Prod.fst hy)).1
    · exact congrArg Prod.snd (List.cons.inj (congrArg Prod.fst (Option.some.inj h))).1
    · cases h
  subst hv
  exact ⟨u, hx, h⟩

theorem pairsText_cons (k v : Text) (l : Text × Text) (ls : List (Text × Text)) :
    pairsText ((k, v) :: l :: ls) = k ++ '=' :: '"' :: v ++ '"' :: ',' :: pairsText (l :: ls) := rfl

theorem readPairs_iff : ∀ (ls : List (Text × Text)), ls ≠ [] → (∀ l ∈ ls, IsName l.1) → ∀ (n : Nat), ls.length ≤ n →
    ∀ t r : Text, readPairs n (pairsText ls ++ '}' :: t) = some (ls, r) ↔ (∀ l ∈ ls, Clean l.2) ∧ r = t
  | [(k, v)], _, hnames, n + 1, _, t, r => by
    have htext : pairsText [(k, v)] ++ '}' :: t = k ++ '=' :: '"' :: (v ++ '"' :: '}' :: t) := by simp [pairsText]
    rw [htext]
    rw [readPairs_succ (hnames (k, v) (.head _))]
    constructor
    · intro h
      obtain ⟨u, hvalue, h⟩ := readPairs_first h
      obtain ⟨hclean, rfl⟩ := readValue_iff.1 hvalue
      exact ⟨by simpa using hclean, (congrArg Prod.snd (Option.some.inj h)).symm⟩
    · rintro ⟨hclean, rfl⟩
      rw [readValue_append (hclean (k, v) (.head _))]
      rfl
  | (k, v) :: l :: ls, _, hnames, n + 1, hn, t, r => by
    have htext : pairsText ((k, v) :: l :: ls) ++ '}' :: t =
        k ++ '=' :: '"' :: (v ++ '"' :: ',' :: (pairsText (l :: ls) ++ '}' :: t)) := by simp [pairsText_cons]
    have ih := readPairs_iff (l :: ls) (List.cons_ne_nil _ _) (fun l' hl' => hnames l' (.tail _ hl')) n
      (Nat.le_of_succ_le_succ hn) t
    rw [htext]
    rw [readPairs_succ (hnames (k, v) (.head _))]
    constructor
    · intro h
      obtain ⟨u, hvalue, h⟩ := readPairs_first h
      obtain ⟨hclean, rfl⟩ := readValue_iff.1 hvalue
      obtain ⟨⟨ls', r'⟩, hrest, hy⟩ := Option.map_eq_some_iff.1 h
      obtain ⟨hls, rfl⟩ := Prod.mk.inj hy
      obtain rfl := (List.cons.inj hls).2
      obtain ⟨hcleans, rfl⟩ := (ih r').1 hrest
      exact ⟨List.forall_mem_cons.2 ⟨hclean, hcleans⟩, rfl⟩
    · rintro ⟨hclean, rfl⟩
      rw [readValue_append (hclean (k, v) (.head _)), Option.bind_some]
      simp only
      rw [(ih r).2 ⟨fun l' hl' => hclean l' (.tail _ hl'), rfl⟩]
      rfl

theorem length_le_pairsText : ∀ ls : List (Text × Text), ls.length ≤ (pairsText ls).length
  | []            => Nat.le_refl 0
  | [(k, v)]      => by
    simp only [pairsText, List.length_append, List.length_cons]
    omega
  | (k, v) :: l :: ls => by
    have ih := length_le_pairsText (l :: ls)
    rw [pairsText_cons, List.length_cons]
    simp only [List.length_append, List.length_cons] at ih ⊢
    omega

theorem readLabels_iff {ls : List (Text × Text)} (hnames : ∀ l ∈ ls, IsName l.1) (t r : Text) :
    readLabels (labelsText ls ++ ' ' :: t) = some (ls, r) ↔ (∀ l ∈ ls, Clean l.2) ∧ r = ' ' :: t := by
  by_cases hls : ls = []
  · subst hls
    show some (([] : List (Text × Text)), ' ' :: t) = some ([], r) ↔ _
    constructor
    · intro h
      exact ⟨fun l hl => (nomatch hl), (congrArg Prod.snd (Option.some.inj h)).symm⟩
    · rintro ⟨-, rfl⟩
      rfl
  · have htext : labelsText ls ++ ' ' :: t = '{' :: (pairsText ls ++ '}' :: (' ' :: t)) := by simp [labelsText, hls]
    rw [htext, readLabels]
    refine readPairs_iff ls hls hnames _ ?_ (' ' :: t) r
    have hlen := length_le_pairsText ls
    rw [List.length_append]
    omega

/-- **A sample is understood exactly if its label values need no escapes.** -/
theorem readSample_iff {s : Sample} (h : (Entry.sample s).Printable) (t r : Text) :
    readSample ((Entry.sample s).text ++ t) = some (s, r) ↔ (Entry.sample s).Clean ∧ r = t := by
  obtain ⟨hname, hnames, hne, hspace, hline⟩ := h
  have htext : (Entry.sample s).text ++ t = s.name ++ (labelsText s.labels ++ ' ' :: (s.value ++ '\n' :: t)) := by
    simp [Entry.text]
  have hfirst : ∀ c ∈ (labelsText s.labels ++ ' ' :: (s.value ++ '\n' :: t)).head?, isNameChar c = false := by
    intro c hc
    unfold labelsText at hc
    split at hc <;> (obtain rfl := Option.some.inj hc; decide)
  have hvalue : ¬ (s.value = [] ∨ ' ' ∈ s.value) := by simp [hne, hspace]
  have hspaced : expect [' '] (' ' :: (s.value ++ '\n' :: t)) = some (s.value ++ '\n' :: t) := expect_append [' '] _
  rw [htext, readSample, readName_append hname hfirst, Option.bind_eq_bind, Option.bind_some]
  simp only [Option.bind_eq_bind]
  constructor
  · intro h
    obtain ⟨⟨ls, u⟩, hlabels, h⟩ := Option.bind_eq_some_iff.1 h
    obtain ⟨u', hu', h⟩ := Option.bind_eq_some_iff.1 h
    obtain ⟨⟨v, u''⟩, hread, h⟩ := Option.bind_eq_some_iff.1 h
    simp only at h
    split at h
    · cases h
    · obtain ⟨hs, rfl⟩ := Prod.mk.inj (Option.some.inj h)
      have hls : ls = s.labels := congrArg Sample.labels hs
      subst hls
      obtain ⟨hclean, rfl⟩ := (readLabels_iff hnames _ u).1 hlabels
      obtain rfl := Option.some.inj (hspaced.symm.trans hu')
      rw [readLine_append hline] at hread
      exact ⟨hclean, (congrArg Prod.snd (Option.some.inj hread)).symm⟩
  · rintro ⟨hclean, rfl⟩
    rw [(readLabels_iff hnames _ _).2 ⟨hclean, rfl⟩, Option.bind_some, hspaced, Option.bind_some, readLine_append hline,
      Option.bind_some, if_neg hvalue]
    rfl

/-! ## Lines -/

theorem not_help_of_name {name : Text} (h : IsName name) (t : Text) :
    expect helpMark (name ++ t) = none ∧ expect typeMark (name ++ t) = none := by
  obtain ⟨hne, hchars⟩ := h
  cases name with
  | nil => exact absurd rfl hne
  | cons c name =>
    have hc : '#' ≠ c := by
      rintro rfl
      exact absurd (hchars '#' (.head _)) (by decide)
    exact ⟨if_neg hc, if_neg hc⟩

theorem head?_space (t : Text) : ∀ c ∈ (' ' :: t).head?, isNameChar c = false := by
  intro c hc
  obtain rfl := Option.some.inj hc
  decide

theorem readDoc {name doc : Text} (hname : IsName name) (hdoc : '\n' ∉ doc) (t : Text) {β : Type} (f : Text → Text → β) :
    (do
      let (name, t) ← readName (name ++ ' ' :: (doc ++ '\n' :: t))
      let t ← expect [' '] t
      let (doc, t) ← readLine t
      return (f name doc, t)) = some (f name doc, t) := by
  have hspaced : expect [' '] (' ' :: (doc ++ '\n' :: t)) = some (doc ++ '\n' :: t) := expect_append [' '] _
  simp only [readName_append hname (head?_space _), Option.bind_eq_bind, Option.bind_some, hspaced, readLine_append hdoc]
  rfl

theorem readEntry_iff {e : Entry} (h : e.Printable) (t r : Text) :
    readEntry (e.text ++ t) = some (e, r) ↔ e.Clean ∧ r = t := by
  cases e with
  | help name doc =>
    have htext : (Entry.help name doc).text ++ t = helpMark ++ (name ++ ' ' :: (doc ++ '\n' :: t)) := by
      simp [Entry.text]
    have hread := readDoc h.1 h.2 t Entry.help
    rw [htext, readEntry, expect_append]
    simp only [hread]
    constructor
    · intro heq
      exact ⟨trivial, (congrArg Prod.snd (Option.some.inj heq)).symm⟩
    · rintro ⟨-, rfl⟩
      rfl
  | type name kind =>
    have htext : (Entry.type name kind).text ++ t = typeMark ++ (name ++ ' ' :: (kind ++ '\n' :: t)) := by
      simp [Entry.text]
    have hhelp : expect helpMark (typeMark ++ (name ++ ' ' :: (kind ++ '\n' :: t))) = none := rfl
    have hread := readDoc h.1 h.2 t Entry.type
    rw [htext, readEntry, expect_append, hhelp]
    simp only [hread]
    constructor
    · intro heq
      exact ⟨trivial, (congrArg Prod.snd (Option.some.inj heq)).symm⟩
    · rintro ⟨-, rfl⟩
      rfl
  | sample s =>
    have htext : (Entry.sample s).text ++ t = s.name ++ (labelsText s.labels ++ ' ' :: (s.value ++ '\n' :: t)) := by
      simp [Entry.text]
    have hread := readSample_iff h t r
    obtain ⟨hhelp, htype⟩ := not_help_of_name h.1 (labelsText s.labels ++ ' ' :: (s.value ++ '\n' :: t))
    rw [htext] at hread ⊢
    rw [readEntry, hhelp, htype, ← hread]
    simp only
    constructor
    · intro heq
      obtain ⟨⟨s', r'⟩, hs, heq⟩ := Option.map_eq_some_iff.1 heq
      obtain ⟨hs', rfl⟩ := Prod.mk.inj heq
      obtain rfl := Entry.sample.inj hs'
      exact hs
    · intro heq
      rw [heq]
      rfl

theorem text_ne_nil (e : Entry) : e.text ≠ [] := by
  cases e <;> simp [Entry.text]

theorem readLines_iff : ∀ (es : List Entry), (∀ e ∈ es, e.Printable) → ∀ (n : Nat), es.length ≤ n →
    (readLines n (es.flatMap Entry.text) = some es ↔ ∀ e ∈ es, e.Clean)
  | [],      _, n, _ => by simp [readLines]
  | e :: es, h, n + 1, hn => by
    have ih := readLines_iff es (fun e' he' => h e' (.tail _ he')) n (Nat.le_of_succ_le_succ hn)
    have hentry := readEntry_iff (h e (.head _)) (es.flatMap Entry.text)
    rw [List.flatMap_cons]
    cases htext : e.text ++ es.flatMap Entry.text with
    | nil => exact absurd (List.append_eq_nil_iff.1 htext).1 (text_ne_nil e)
    | cons c t =>
      rw [htext] at hentry
      rw [readLines, List.forall_mem_cons, ← ih]
      constructor
      · intro heq
        obtain ⟨⟨e', r⟩, he, heq⟩ := Option.bind_eq_some_iff.1 heq
        obtain ⟨es', hes, heq⟩ := Option.bind_eq_some_iff.1 heq
        obtain ⟨rfl, rfl⟩ := List.cons.inj (Option.some.inj heq)
        obtain ⟨hclean, rfl⟩ := (hentry r).1 he
        exact ⟨hclean, hes⟩
      · rintro ⟨hclean, hes⟩
        rw [(hentry _).2 ⟨hclean, rfl⟩, Option.bind_eq_bind, Option.bind_some]
        simp only [hes]
        rfl

theorem length_le_flatMap : ∀ es : List Entry, es.length ≤ (es.flatMap Entry.text).length
  | []      => Nat.le_refl 0
  | e :: es => by
    have ih := length_le_flatMap es
    have hpos := List.length_pos_of_ne_nil (text_ne_nil e)
    rw [List.flatMap_cons, List.length_append, List.length_cons]
    omega

/-- **What is written is what is read**, exactly if no label value needs escapes. -/
theorem readEntries_iff {es : List Entry} (h : ∀ e ∈ es, e.Printable) :
    readEntries (es.flatMap Entry.text) = some es ↔ ∀ e ∈ es, e.Clean :=
  readLines_iff es h _ (length_le_flatMap es)

/-! ## Families of samples -/

structure Family where
  name    : Text
  doc     : Text
  kind    : Text
  samples : List (List (Text × Text) × Text)

def Family.entries (f : Family) : List Entry :=
  .help f.name f.doc :: .type f.name f.kind :: f.samples.map (fun s => .sample ⟨f.name, s.1, s.2⟩)

def Family.text (f : Family) : Text := f.entries.flatMap Entry.text

structure WellFormed (fs : List Family) : Prop where
  names  : (fs.map (·.name)).Nodup
  series : ∀ f ∈ fs, (f.samples.map (·.1)).Nodup

/-- What a scraper takes from a text. -/
def Exposes (t : Text) (fs : List Family) : Prop := readEntries t = some (fs.flatMap Family.entries) ∧ WellFormed fs

theorem samples_inj {name name' : Text} : ∀ {ss ss' : List (List (Text × Text) × Text)} {es es' : List Entry},
    (∀ s ∈ es.head?, ∀ x, s ≠ .sample x) → (∀ s ∈ es'.head?, ∀ x, s ≠ .sample x) →
    ss.map (fun s => .sample ⟨name, s.1, s.2⟩) ++ es = ss'.map (fun s => Entry.sample ⟨name', s.1, s.2⟩) ++ es' →
    ss = ss' ∧ es = es'
  | [],     [],       _,  _,   _,  _,   h => ⟨rfl, h⟩
  | [],     s :: ss', _, es', he, _,   h => by
    subst h
    exact absurd rfl (he _ rfl _)
  | s :: ss, [],      es, _,   _,  he', h => by
    subst h
    exact absurd rfl (he' _ rfl _)
  | s :: ss, s' :: ss', es, es', he, he', h => by
    obtain ⟨hs, h⟩ := List.cons.inj h
    obtain ⟨-, hl, hv⟩ := Sample.mk.inj (Entry.sample.inj hs)
    obtain ⟨rfl, rfl⟩ := samples_inj he he' h
    exact ⟨by rw [Prod.ext hl hv], rfl⟩

theorem entries_head? (fs : List Family) : ∀ e ∈ (fs.flatMap Family.entries).head?, ∀ x, e ≠ .sample x := by
  intro e he x
  cases fs with
  | nil => cases he
  | cons f fs =>
    obtain rfl := Option.some.inj he
    exact fun h => nomatch h

/-- **A scraper takes one thing from a text.** -/
theorem entries_inj : ∀ {fs fs' : List Family}, fs.flatMap Family.entries = fs'.flatMap Family.entries → fs = fs'
  | [],      [],        _ => rfl
  | [],      _ :: _,    h => nomatch h
  | _ :: _,  [],        h => nomatch h
  | f :: fs, f' :: fs', h => by
    rw [List.flatMap_cons, List.flatMap_cons] at h
    obtain ⟨hhelp, h⟩ := List.cons.inj h
    obtain ⟨htype, h⟩ := List.cons.inj h
    obtain ⟨hname, hdoc⟩ := Entry.help.inj hhelp
    obtain ⟨hsamples, hrest⟩ := samples_inj (entries_head? fs) (entries_head? fs') h
    obtain ⟨name, doc, kind, samples⟩ := f
    obtain ⟨name', doc', kind', samples'⟩ := f'
    obtain rfl := hname
    obtain rfl := hdoc
    obtain rfl := (Entry.type.inj htype).2
    obtain rfl := hsamples
    rw [entries_inj hrest]

theorem exposes_unique {t : Text} {fs fs' : List Family} (h : Exposes t fs) (h' : Exposes t fs') : fs = fs' :=
  entries_inj (Option.some.inj (h.1.symm.trans h'.1))

structure IsValue (v : Text) : Prop where
  nonempty : v ≠ []
  no_blank : ' ' ∉ v
  no_end   : '\n' ∉ v

structure Family.Printable (f : Family) : Prop where
  name   : IsName f.name
  doc    : '\n' ∉ f.doc
  kind   : '\n' ∉ f.kind
  labels : ∀ s ∈ f.samples, ∀ l ∈ s.1, IsName l.1
  values : ∀ s ∈ f.samples, IsValue s.2

def Family.Clean (f : Family) : Prop := ∀ s ∈ f.samples, ∀ l ∈ s.1, Exposition.Clean l.2

theorem Family.Printable.entries {f : Family} (h : f.Printable) : ∀ e ∈ f.entries, e.Printable := by
  intro e he
  rcases List.mem_cons.1 he with rfl | he
  · exact ⟨h.name, h.doc⟩
  · rcases List.mem_cons.1 he with rfl | he
    · exact ⟨h.name, h.kind⟩
    · obtain ⟨s, hs, rfl⟩ := List.mem_map.1 he
      have hv := h.values s hs
      exact ⟨h.name, h.labels s hs, hv.nonempty, hv.no_blank, hv.no_end⟩

theorem Family.clean_iff (f : Family) : (∀ e ∈ f.entries, e.Clean) ↔ f.Clean := by
  constructor
  · intro h s hs
    exact h _ (.tail _ (.tail _ (List.mem_map.2 ⟨s, hs, rfl⟩)))
  · intro h e he
    rcases List.mem_cons.1 he with rfl | he
    · exact trivial
    · rcases List.mem_cons.1 he with rfl | he
      · exact trivial
      · obtain ⟨s, hs, rfl⟩ := List.mem_map.1 he
        exact h s hs

/-- **A scraper takes from the text the families that were written**, exactly if no label value needs escapes. -/
theorem exposes_iff {fs : List Family} (hprint : ∀ f ∈ fs, f.Printable) (hwell : WellFormed fs) :
    Exposes (fs.flatMap Family.text) fs ↔ ∀ f ∈ fs, f.Clean := by
  have htext : fs.flatMap Family.text = (fs.flatMap Family.entries).flatMap Entry.text := by
    rw [List.flatMap_assoc]
    rfl
  have hprints : ∀ e ∈ fs.flatMap Family.entries, e.Printable := by
    intro e he
    obtain ⟨f, hf, he⟩ := List.mem_flatMap.1 he
    exact (hprint f hf).entries e he
  rw [Exposes, htext, readEntries_iff hprints]
  simp only [List.mem_flatMap, forall_exists_index, and_imp, hwell, and_true]
  constructor
  · intro h f hf
    exact f.clean_iff.1 (fun e he => h e f hf he)
  · intro h e f hf he
    exact f.clean_iff.2 (h f hf) e he

/-! ## Literals -/

/-- The characters of string literals. -/
inductive Literals : List Text → List Text → Prop
  | nil : Literals [] []
  | cons {l : Text} {ts ls : List Text} : Literals ts ls → Literals ((String.ofList l).toList :: ts) (l :: ls)

theorem Literals.eq {ts ls : List Text} (h : Literals ts ls) : ts = ls := by
  induction h with
  | nil => rfl
  | cons _ ih => rw [String.toList_ofList, ih]

theorem isName_literal {l : Text} (h : IsName l) : IsName (String.ofList l).toList := by rwa [String.toList_ofList]

end Exposition
