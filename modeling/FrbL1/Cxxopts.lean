import FrbL1.Fallible
import Mathlib.Data.List.TakeWhile
/-!
# Cxxopts — the command line parser `cxxopts.hpp`

`ParseResult::parse` reads `argv` argument by argument: a text that the regular expression `option_matcher` does not
match is a positional argument, the others are one long option or a row of short ones, of which the last may take the
argument after it.  Options with default values are left out.

What can be written on a command line are `Piece`s.  `parse_eq_ok_iff` says that `parse` accepts exactly the rows of
well-formed pieces, and does what their settings say, one after the other.
-/
namespace Cxxopts

abbrev Arg := List Char

/-- What an option does with the text of its argument: it stores to the variables that `σ` holds, or throws. -/
structure Value (σ : Type) where
  isContainer   : Bool
  implicitValue : Option Arg
  parse         : Arg → σ → Except Arg σ

structure OptionDetails (σ : Type) where
  shortName : Option Char
  longName  : Arg
  value     : Value σ

/-- `results` is `m_count`, by long name; `positional` are the names from `m_next_positional` on; `argv` is what nobody
took. -/
structure ParseResult (σ : Type) where
  store      : σ
  results    : Arg → Nat
  positional : List Arg
  argv       : List Arg

variable {σ : Type}

/-! ## Exceptions -/

def quoted (s : Arg) : Arg := '‘' :: s ++ ['’']

def optionNotExists (option : Arg) : Arg := "Option ".toList ++ quoted option ++ " does not exist".toList

def missingArgument (option : Arg) : Arg := "Option ".toList ++ quoted option ++ " is missing an argument".toList

def optionRequiresArgument (option : Arg) : Arg := "Option ".toList ++ quoted option ++ " requires an argument".toList

def argumentIncorrectType (arg : Arg) : Arg := "Argument ".toList ++ quoted arg ++ " failed to parse".toList

/-! ## The matcher -/

/-- The groups of a match: 1 and 3, or 4. -/
inductive Match
  | long (name : Arg) (value : Option Arg)
  | short (names : List Char)
  deriving DecidableEq

/-- `[-_[:alnum:]]` -/
def isNameChar (c : Char) : Bool := c = '-' || c = '_' || c.isAlphanum

/-- What `.` matches. -/
def isDot (c : Char) : Bool := c ≠ '\n' && c ≠ '\r'

/-- `--([[:alnum:]][-_[:alnum:]]+)(=(.*))?|-([[:alnum:]]+)` -/
def optionMatcher : Arg → Option Match
  | '-' :: '-' :: c :: s =>
    if c.isAlphanum ∧ s.takeWhile isNameChar ≠ [] then
      match s.dropWhile isNameChar with
      | []       => some (.long (c :: s) none)
      | '=' :: t => if t.all isDot then some (.long (c :: s.takeWhile isNameChar) (some t)) else none
      | _        => none
    else none
  | '-' :: c :: s => if (c :: s).all Char.isAlphanum then some (.short (c :: s)) else none
  | _ => none

def IsLongName (name : Arg) : Prop := ∃ c s, name = c :: s ∧ c.isAlphanum = true ∧ s ≠ [] ∧ ∀ d ∈ s, isNameChar d = true

theorem takeWhile_append_of_all {p : Char → Bool} {s t : Arg} (hs : ∀ c ∈ s, p c = true)
    (ht : ∀ c ∈ t.head?, p c = false) :
    (s ++ t).takeWhile p = s ∧ (s ++ t).dropWhile p = t := by
  rw [List.takeWhile_append_of_pos hs, List.dropWhile_append_of_pos hs]
  cases t with
  | nil => exact ⟨List.append_nil s, rfl⟩
  | cons c t =>
    have hc : p c = false := ht c rfl
    exact ⟨by rw [List.takeWhile_cons, hc]; exact List.append_nil s, by rw [List.dropWhile_cons, hc]; rfl⟩

theorem optionMatcher_long {name : Arg} (h : IsLongName name) :
    optionMatcher ('-' :: '-' :: name) = some (.long name none) := by
  obtain ⟨c, s, rfl, hc, hne, hs⟩ := h
  have htake := takeWhile_append_of_all (t := []) hs (fun c hc => nomatch hc)
  rw [List.append_nil] at htake
  rw [optionMatcher, htake.1, htake.2, if_pos ⟨hc, hne⟩]

theorem optionMatcher_assigned {name value : Arg} (h : IsLongName name) (hvalue : value.all isDot = true) :
    optionMatcher ('-' :: '-' :: (name ++ '=' :: value)) = some (.long name (some value)) := by
  obtain ⟨c, s, rfl, hc, hne, hs⟩ := h
  have htake := takeWhile_append_of_all (t := '=' :: value) hs (fun c hc => by
    obtain rfl := Option.some.inj hc
    rfl)
  rw [List.cons_append, optionMatcher, htake.1, htake.2, if_pos ⟨hc, hne⟩]
  exact if_pos hvalue

theorem optionMatcher_short {names : List Char} (hne : names ≠ []) (h : ∀ c ∈ names, c.isAlphanum = true) :
    optionMatcher ('-' :: names) = some (.short names) := by
  obtain ⟨c, s, rfl⟩ := List.exists_cons_of_ne_nil hne
  unfold optionMatcher
  split
  · rename_i heq
    obtain ⟨rfl, -⟩ := List.cons.inj (List.cons.inj heq).2
    exact absurd (h '-' (.head _)) (by decide)
  · rename_i heq
    obtain ⟨rfl, rfl⟩ := List.cons.inj (List.cons.inj heq).2
    rw [if_pos (List.all_eq_true.2 h)]
  · rename_i hno
    exact absurd rfl (hno c s)

/-- **What the matcher matches**, and with which groups. -/
theorem optionMatcher_eq_some {a : Arg} {m : Match} (h : optionMatcher a = some m) :
    (∃ name, IsLongName name ∧ a = '-' :: '-' :: name ∧ m = .long name none) ∨
    (∃ name value, IsLongName name ∧ value.all isDot = true ∧ a = '-' :: '-' :: (name ++ '=' :: value) ∧
      m = .long name (some value)) ∨
    ∃ names, names ≠ [] ∧ (∀ c ∈ names, c.isAlphanum = true) ∧ a = '-' :: names ∧ m = .short names := by
  unfold optionMatcher at h
  split at h
  · rename_i c s
    split at h
    · rename_i hname
      have hs : s.takeWhile isNameChar ++ s.dropWhile isNameChar = s := List.takeWhile_append_dropWhile
      have hlong : IsLongName (c :: s.takeWhile isNameChar) :=
        ⟨c, _, rfl, hname.1, hname.2, fun d hd => List.mem_takeWhile_imp hd⟩
      split at h
      · rename_i hdrop
        rw [hdrop, List.append_nil] at hs
        rw [hs] at hlong
        exact .inl ⟨c :: s, hlong, rfl, (Option.some.inj h).symm⟩
      · rename_i t hdrop
        split at h
        · rename_i ht
          refine .inr (.inl ⟨_, t, hlong, ht, ?_, (Option.some.inj h).symm⟩)
          rw [List.cons_append, ← hdrop, hs]
        · cases h
      · cases h
    · cases h
  · rename_i c s _
    split at h
    · rename_i hall
      exact .inr (.inr ⟨c :: s, List.cons_ne_nil c s, List.all_eq_true.1 hall, rfl, (Option.some.inj h).symm⟩)
    · cases h
  · cases h

/-! ## The parser -/

/-- `m_options` has an entry for both names. -/
def OptionDetails.hasName (d : OptionDetails σ) (name : Arg) : Bool :=
  d.shortName.map (fun c => [c]) = some name || d.longName = name

def find (options : List (OptionDetails σ)) (name : Arg) : Option (OptionDetails σ) := options.find? (·.hasName name)

/-- `ParseResult::count` -/
def ParseResult.count (options : List (OptionDetails σ)) (r : ParseResult σ) (o : Arg) : Nat :=
  match find options o with
  | none   => 0
  | some d => r.results d.longName

def parseOption (d : OptionDetails σ) (arg : Arg) (r : ParseResult σ) : Except Arg (ParseResult σ) :=
  match d.value.parse arg r.store with
  | .error e  => .error e
  | .ok store =>
    .ok { r with store, results := fun o => if o = d.longName then r.results o + 1 else r.results o }

/-- `next` is the argument after the current one.  True if it was taken, which is `++current`. -/
def checkedParseArg (d : OptionDetails σ) (name : Arg) (next : Option Arg) (r : ParseResult σ) :
    Except Arg (Bool × ParseResult σ) :=
  match d.value.implicitValue, next with
  | some v, _      => (parseOption d v r).map (fun r => (false, r))
  | none, some arg => (parseOption d arg r).map (fun r => (true, r))
  | none, none     => .error (missingArgument name)

section
variable (options : List (OptionDetails σ))

/-- `consume_positional`, from a name on. -/
def consumePositional (a : Arg) : List Arg → ParseResult σ → Except Arg (Bool × ParseResult σ)
  | [], r => .ok (false, { r with positional := [] })
  | p :: next, r =>
    match find options p with
    | none   => consumePositional a next r
    | some d =>
      if d.value.isContainer then
        (parseOption d a { r with positional := p :: next }).map (fun r => (true, r))
      else if r.results d.longName = 0 then
        (parseOption d a { r with positional := next }).map (fun r => (true, r))
      else consumePositional a next r

def parseNames (next : Option Arg) : List Char → ParseResult σ → Except Arg (Bool × ParseResult σ)
  | [], r => .ok (false, r)
  | c :: names, r =>
    match find options [c] with
    | none   => .error (optionNotExists [c])
    | some d =>
      if names = [] then checkedParseArg d [c] next r
      else
        match d.value.implicitValue with
        | some v => (parseOption d v r).bind (parseNames next names)
        | none   => .error (optionRequiresArgument [c])

/-- One round of the loop over `argv`. -/
def parseArg (a : Arg) (next : Option Arg) (r : ParseResult σ) : Except Arg (Bool × ParseResult σ) :=
  match optionMatcher a with
  | none =>
    (consumePositional options a r.positional r).map
      (fun x => (false, if x.1 then x.2 else { x.2 with argv := x.2.argv ++ [a] }))
  | some (.short names) => parseNames options next names r
  | some (.long name value) =>
    match find options name with
    | none   => .error (optionNotExists name)
    | some d =>
      match value with
      | some arg => (parseOption d arg r).map (fun r => (false, r))
      | none     => checkedParseArg d name next r

/-- What is behind `--`. -/
def consumeRemaining : List Arg → ParseResult σ → Except Arg (ParseResult σ)
  | [], r => .ok r
  | a :: rest, r =>
    (consumePositional options a r.positional r).bind (fun x =>
      if x.1 then consumeRemaining rest x.2 else .ok { x.2 with argv := x.2.argv ++ a :: rest })

/-- The loop.  The first argument is left out if the option before it has taken it. -/
def parseArgs : Bool → List Arg → ParseResult σ → Except Arg (ParseResult σ)
  | _, [], r            => .ok r
  | true, _ :: rest, r  => parseArgs false rest r
  | false, a :: rest, r =>
    if a = ['-', '-'] then consumeRemaining options rest r
    else (parseArg options a rest.head? r).bind (fun x => parseArgs x.1 rest x.2)

/-- `Options::parse`; `argv` is without the program's name. -/
def parse (positional argv : List Arg) (store : σ) : Except Arg (ParseResult σ) :=
  parseArgs options false argv ⟨store, fun _ => 0, positional, []⟩

end

/-! ## What can be written -/

abbrev Setting (σ : Type) := OptionDetails σ × Arg

inductive Piece
  | names (flags : List Char) (last : Char) (arg : Option Arg)     -- `-vfb 3`
  | long (name : Arg) (arg : Option Arg)                           -- `--beam 3`
  | assigned (name value : Arg)                                    -- `--beam=3`
  | word (a : Arg)

def Piece.args : Piece → List Arg
  | .names flags last arg => ('-' :: (flags ++ [last])) :: arg.toList
  | .long name arg        => ('-' :: '-' :: name) :: arg.toList
  | .assigned name value  => [('-' :: '-' :: (name ++ '=' :: value))]
  | .word a               => [a]

/-- An option takes an argument if and only if it has no implicit value. -/
def OptionDetails.setting (d : OptionDetails σ) : Option Arg → Option (Setting σ)
  | none     => d.value.implicitValue.map (fun v => (d, v))
  | some arg => if d.value.implicitValue.isNone then some (d, arg) else none

section
variable (options : List (OptionDetails σ)) (container : OptionDetails σ)

def settingNamed (name : Arg) (arg : Option Arg) : Option (Setting σ) := (find options name).bind (·.setting arg)

inductive Piece.Sets : Piece → List (Setting σ) → Prop
  | names {flags : List Char} {last : Char} {arg : Option Arg} {xs : List (Setting σ)} {x : Setting σ} :
      (∀ c ∈ flags ++ [last], c.isAlphanum = true) → flags.mapM (fun c => settingNamed options [c] none) = some xs →
      settingNamed options [last] arg = some x → Piece.Sets (.names flags last arg) (xs ++ [x])
  | long {name : Arg} {arg : Option Arg} {x : Setting σ} :
      IsLongName name → settingNamed options name arg = some x → Piece.Sets (.long name arg) [x]
  | assigned {name value : Arg} {d : OptionDetails σ} :
      IsLongName name → value.all isDot = true → find options name = some d →
      Piece.Sets (.assigned name value) [(d, value)]
  | word {a : Arg} : a ≠ ['-', '-'] → optionMatcher a = none → Piece.Sets (.word a) [(container, a)]

/-- **A command line and what it sets**: well-formed pieces, and possibly `--` and words of any form. -/
inductive Line : List Arg → List (Setting σ) → Prop
  | nil : Line [] []
  | piece {p : Piece} {xs ys : List (Setting σ)} {rest : List Arg} :
      p.Sets options container xs → Line rest ys → Line (p.args ++ rest) (xs ++ ys)
  | remaining (words : List Arg) : Line (['-', '-'] :: words) (words.map (fun a => (container, a)))

end

def applyAll : List (Setting σ) → ParseResult σ → Except Arg (ParseResult σ)
  | [], r           => .ok r
  | (d, arg) :: xs, r => (parseOption d arg r).bind (applyAll xs)

/-! ## Reading a line -/

theorem applyAll_append : ∀ (xs ys : List (Setting σ)) (r : ParseResult σ),
    applyAll (xs ++ ys) r = (applyAll xs r).bind (applyAll ys)
  | [], ys, r => rfl
  | (d, arg) :: xs, ys, r => by
    rw [List.cons_append, applyAll, applyAll]
    cases parseOption d arg r with
    | error e => rfl
    | ok r₁ => exact applyAll_append xs ys r₁

theorem parseOption_rest {d : OptionDetails σ} {arg : Arg} {r r' : ParseResult σ} (h : parseOption d arg r = .ok r') :
    r'.positional = r.positional ∧ r'.argv = r.argv := by
  unfold parseOption at h
  split at h
  · cases h
  · cases h
    exact ⟨rfl, rfl⟩

theorem applyAll_rest : ∀ {xs : List (Setting σ)} {r r' : ParseResult σ}, applyAll xs r = .ok r' →
    r'.positional = r.positional ∧ r'.argv = r.argv
  | [], r, r', h => by
    cases h
    exact ⟨rfl, rfl⟩
  | (d, arg) :: xs, r, r', h => by
    rw [applyAll] at h
    cases hp : parseOption d arg r with
    | error e => rw [hp] at h; cases h
    | ok r₁ =>
      rw [hp] at h
      obtain ⟨hpos, hargv⟩ := applyAll_rest (r := r₁) h
      obtain ⟨hpos₁, hargv₁⟩ := parseOption_rest hp
      exact ⟨hpos.trans hpos₁, hargv.trans hargv₁⟩

section
variable {options : List (OptionDetails σ)} {p : Arg} {container : OptionDetails σ}

theorem setting_eq_some {d d' : OptionDetails σ} {arg : Option Arg} {v : Arg} (h : d.setting arg = some (d', v)) :
    d' = d ∧ (arg = none ∧ d.value.implicitValue = some v ∨ arg = some v ∧ d.value.implicitValue = none) := by
  cases arg with
  | none =>
    obtain ⟨v', hv, h⟩ := Option.map_eq_some_iff.1 h
    cases h
    exact ⟨rfl, .inl ⟨rfl, hv⟩⟩
  | some arg =>
    simp only [OptionDetails.setting, Option.isNone_iff_eq_none, Option.ite_none_right_eq_some, Option.some.injEq] at h
    obtain ⟨himplicit, h⟩ := h
    cases h
    exact ⟨rfl, .inr ⟨rfl, himplicit⟩⟩

theorem checkedParseArg_of_setting {d : OptionDetails σ} {arg : Option Arg} {x : Setting σ} (h : d.setting arg = some x)
    (name : Arg) (rest : List Arg) (r : ParseResult σ) :
    (checkedParseArg d name (arg.toList ++ rest).head? r).bind
        (fun y => parseArgs options y.1 (arg.toList ++ rest) y.2) =
      (applyAll [x] r).bind (parseArgs options false rest) := by
  obtain ⟨d', v⟩ := x
  obtain ⟨rfl, ⟨rfl, himplicit⟩ | ⟨rfl, himplicit⟩⟩ := setting_eq_some h
  · simp only [checkedParseArg, himplicit, applyAll]
    cases parseOption d' v r <;> rfl
  · simp only [Option.toList_some, List.singleton_append, List.head?_cons] at *
    simp only [checkedParseArg, himplicit, applyAll]
    cases parseOption d' v r <;> rfl

theorem settingNamed_eq_some {name : Arg} {arg : Option Arg} {x : Setting σ}
    (h : settingNamed options name arg = some x) :
    ∃ d, find options name = some d ∧ d.setting arg = some x := Option.bind_eq_some_iff.1 h

theorem parseNames_of_settings {last : Char} {d : OptionDetails σ} (hd : find options [last] = some d)
    (next : Option Arg) : ∀ {flags : List Char} {xs : List (Setting σ)},
    flags.mapM (fun c => settingNamed options [c] none) = some xs → ∀ r : ParseResult σ,
      parseNames options next (flags ++ [last]) r = (applyAll xs r).bind (checkedParseArg d [last] next)
  | [], xs, h, r => by
    cases h
    rw [List.nil_append, parseNames, hd]
    rfl
  | c :: flags, xs, h, r => by
    rw [List.mapM_cons] at h
    obtain ⟨x, hx, h⟩ := Option.bind_eq_some_iff.1 h
    obtain ⟨xs', hxs', h⟩ := Option.bind_eq_some_iff.1 h
    cases h
    obtain ⟨d', v⟩ := x
    obtain ⟨e, he, hsetting⟩ := settingNamed_eq_some hx
    obtain ⟨rfl, ⟨-, himplicit⟩ | ⟨hnone, -⟩⟩ := setting_eq_some hsetting
    · have hne : flags ++ [last] ≠ [] := by simp
      simp only [List.cons_append, parseNames, he, hne, if_false, himplicit, applyAll]
      cases parseOption d' v r with
      | error e => rfl
      | ok r₁ => exact parseNames_of_settings hd next hxs' r₁
    · cases hnone

section
variable (hp : find options p = some container) (hcontainer : container.value.isContainer = true)
include hp hcontainer

theorem consumePositional_container (a : Arg) {r : ParseResult σ} (hr : r.positional = [p]) :
    consumePositional options a r.positional r = (parseOption container a r).map (fun r => (true, r)) := by
  obtain ⟨store, results, positional, argv⟩ := r
  obtain rfl : positional = [p] := hr
  simp only [consumePositional, hp, hcontainer, if_true]

theorem consumeRemaining_container : ∀ (words : List Arg) {r : ParseResult σ}, r.positional = [p] →
    consumeRemaining options words r = applyAll (words.map (fun a => (container, a))) r
  | [], r, _ => rfl
  | a :: words, r, hr => by
    rw [consumeRemaining, consumePositional_container hp hcontainer a hr, List.map_cons, applyAll]
    cases h : parseOption container a r with
    | error e => rfl
    | ok r₁ => exact consumeRemaining_container words ((parseOption_rest h).1.trans hr)

theorem parseArgs_piece {pc : Piece} {xs : List (Setting σ)} (h : pc.Sets options container xs) (rest : List Arg)
    {r : ParseResult σ} (hr : r.positional = [p]) :
    parseArgs options false (pc.args ++ rest) r = (applyAll xs r).bind (parseArgs options false rest) := by
  cases h with
  | @names flags last arg xs x halnum hxs hx =>
    obtain ⟨d, hd, hsetting⟩ := settingNamed_eq_some hx
    have hmatch : optionMatcher ('-' :: (flags ++ [last])) = some (.short (flags ++ [last])) :=
      optionMatcher_short (by simp) halnum
    have hne : ('-' :: (flags ++ [last])) ≠ ['-', '-'] := fun heq => by
      have hdash : '-' ∈ flags ++ [last] := by rw [(List.cons.inj heq).2]; exact .head _
      exact absurd (halnum _ hdash) (by decide)
    simp only [Piece.args, List.cons_append, parseArgs, hne, if_false, parseArg, hmatch,
      parseNames_of_settings hd _ hxs, applyAll_append]
    cases applyAll xs r with
    | error e => rfl
    | ok r₁ => exact checkedParseArg_of_setting hsetting [last] rest r₁
  | @long name arg x hname hx =>
    obtain ⟨d, hd, hsetting⟩ := settingNamed_eq_some hx
    have hne : ('-' :: '-' :: name) ≠ ['-', '-'] := fun heq => by
      obtain ⟨c, s, rfl, -⟩ := hname
      cases heq
    simp only [Piece.args, List.cons_append, parseArgs, hne, if_false, parseArg, optionMatcher_long hname, hd]
    exact checkedParseArg_of_setting hsetting name rest r
  | @assigned name value d hname hvalue hd =>
    have hne : ('-' :: '-' :: (name ++ '=' :: value)) ≠ ['-', '-'] := fun heq => by
      obtain ⟨c, s, rfl, -⟩ := hname
      cases heq
    simp only [Piece.args, List.cons_append, List.nil_append, parseArgs, hne, if_false, parseArg,
      optionMatcher_assigned hname hvalue, hd, applyAll]
    cases parseOption d value r <;> rfl
  | @word a hne hmatch =>
    simp only [Piece.args, List.cons_append, List.nil_append, parseArgs, hne, if_false, parseArg, hmatch,
      consumePositional_container hp hcontainer a hr, applyAll]
    cases parseOption container a r <;> rfl

/-- **A line does what it sets**, also where that throws. -/
theorem parseArgs_of_line {argv : List Arg} {xs : List (Setting σ)} (h : Line options container argv xs)
    {r : ParseResult σ} (hr : r.positional = [p]) : parseArgs options false argv r = applyAll xs r := by
  induction h generalizing r with
  | nil => rfl
  | @piece pc xs ys rest hpc _ ih =>
    rw [parseArgs_piece hp hcontainer hpc rest hr, applyAll_append]
    cases hxs : applyAll xs r with
    | error e => rfl
    | ok r₁ => exact ih ((applyAll_rest hxs).1.trans hr)
  | remaining words => exact consumeRemaining_container hp hcontainer words hr

end

/-! ## What is read is a line -/

theorem setting_of_checkedParseArg {d : OptionDetails σ} {name : Arg} {rest : List Arg} {r : ParseResult σ}
    {y : Bool × ParseResult σ} (h : checkedParseArg d name rest.head? r = .ok y) :
    ∃ arg x rest', d.setting arg = some x ∧ rest = arg.toList ++ rest' := by
  cases himplicit : d.value.implicitValue with
  | some v => exact ⟨none, (d, v), rest, by rw [OptionDetails.setting, himplicit]; rfl, rfl⟩
  | none =>
    cases rest with
    | nil =>
      simp only [checkedParseArg, himplicit, List.head?_nil] at h
      cases h
    | cons arg rest' => exact ⟨some arg, (d, arg), rest', by rw [OptionDetails.setting, himplicit]; rfl, rfl⟩

theorem settings_of_parseNames {rest : List Arg} : ∀ {names : List Char} {r : ParseResult σ} {y : Bool × ParseResult σ},
    names ≠ [] → parseNames options rest.head? names r = .ok y → ∃ flags last arg xs x rest', names = flags ++ [last] ∧
      flags.mapM (fun c => settingNamed options [c] none) = some xs ∧ settingNamed options [last] arg = some x ∧
      rest = arg.toList ++ rest'
  | c :: names, r, y, _, h => by
    rw [parseNames] at h
    cases hd : find options [c] with
    | none =>
      rw [hd] at h
      cases h
    | some d =>
      simp only [hd] at h
      by_cases hne : names = []
      · rw [if_pos hne] at h
        obtain ⟨arg, x, rest', hx, hrest⟩ := setting_of_checkedParseArg h
        exact ⟨[], c, arg, [], x, rest', by rw [hne]; rfl, rfl, by rw [settingNamed, hd]; exact hx, hrest⟩
      · rw [if_neg hne] at h
        cases himplicit : d.value.implicitValue with
        | none =>
          rw [himplicit] at h
          cases h
        | some v =>
          simp only [himplicit] at h
          cases hparse : parseOption d v r with
          | error e =>
            rw [hparse] at h
            cases h
          | ok r₁ =>
            rw [hparse] at h
            obtain ⟨flags, last, arg, xs, x, rest', hnames, hxs, hx, hrest⟩ := settings_of_parseNames hne h
            have hc : settingNamed options [c] none = some (d, v) := by
              rw [settingNamed, hd]
              exact congrArg (Option.map (fun v => (d, v))) himplicit
            refine ⟨c :: flags, last, arg, (d, v) :: xs, x, rest', by rw [hnames]; rfl, ?_, hx, hrest⟩
            rw [List.mapM_cons, hc, hxs]
            rfl

variable (container) in
/-- **Whatever one round reads is a piece.** -/
theorem piece_of_parseArg {a : Arg} {rest : List Arg} {r : ParseResult σ} {y : Bool × ParseResult σ}
    (hne : a ≠ ['-', '-']) (h : parseArg options a rest.head? r = .ok y) :
    ∃ pc xs rest', Piece.Sets options container pc xs ∧ a :: rest = pc.args ++ rest' := by
  unfold parseArg at h
  cases hmatch : optionMatcher a with
  | none => exact ⟨.word a, _, rest, .word hne hmatch, rfl⟩
  | some m =>
    rw [hmatch] at h
    obtain ⟨name, hname, rfl, rfl⟩ | ⟨name, value, hname, hvalue, rfl, rfl⟩ | ⟨names, hnames, halnum, rfl, rfl⟩ :=
      optionMatcher_eq_some hmatch
    · simp only at h
      cases hd : find options name with
      | none =>
        rw [hd] at h
        cases h
      | some d =>
        rw [hd] at h
        obtain ⟨arg, x, rest', hx, rfl⟩ := setting_of_checkedParseArg h
        exact ⟨.long name arg, _, rest', .long hname (by rw [settingNamed, hd]; exact hx), rfl⟩
    · simp only at h
      cases hd : find options name with
      | none =>
        rw [hd] at h
        cases h
      | some d => exact ⟨.assigned name value, _, rest, .assigned hname hvalue hd, rfl⟩
    · obtain ⟨flags, last, arg, xs, x, rest', rfl, hxs, hx, rfl⟩ := settings_of_parseNames hnames h
      exact ⟨.names flags last arg, _, rest', .names halnum hxs hx, rfl⟩

theorem Piece.args_ne_nil (pc : Piece) : pc.args ≠ [] := by
  cases pc <;> exact List.cons_ne_nil _ _

section
variable (hp : find options p = some container) (hcontainer : container.value.isContainer = true)
include hp hcontainer

/-- **What `parse` accepts is a line.**  Induction on the number of arguments, since a piece has one or two. -/
theorem line_of_parseArgs : ∀ {n : Nat} {argv : List Arg} {r r' : ParseResult σ}, argv.length ≤ n →
    r.positional = [p] → parseArgs options false argv r = .ok r' → ∃ xs, Line options container argv xs
  | _, [], r, r', _, _, h => ⟨[], .nil⟩
  | n + 1, a :: rest, r, r', hn, hr, h => by
    by_cases ha : a = ['-', '-']
    · rw [ha]
      exact ⟨_, .remaining rest⟩
    · have hround : ∃ y, parseArg options a rest.head? r = .ok y := by
        rw [parseArgs, if_neg ha] at h
        cases hy : parseArg options a rest.head? r with
        | error e => rw [hy] at h; cases h
        | ok y => exact ⟨y, rfl⟩
      obtain ⟨y, hy⟩ := hround
      obtain ⟨pc, xs, rest', hpc, hargs⟩ := piece_of_parseArg container ha hy
      rw [hargs, parseArgs_piece hp hcontainer hpc rest' hr] at h
      cases hxs : applyAll xs r with
      | error e => rw [hxs] at h; cases h
      | ok r₁ =>
        rw [hxs] at h
        have hlen : rest'.length ≤ n := by
          have hlength := congrArg List.length hargs
          have hpos := List.length_pos_iff.2 pc.args_ne_nil
          rw [List.length_append] at hlength
          omega
        obtain ⟨ys, hys⟩ := line_of_parseArgs hlen ((applyAll_rest hxs).1.trans hr) h
        exact ⟨xs ++ ys, by rw [hargs]; exact .piece hpc hys⟩

/-- **The command lines that are accepted** are the lines whose settings are, and they do what the settings say. -/
theorem parse_eq_ok_iff {argv : List Arg} {store : σ} {r : ParseResult σ} :
    parse options [p] argv store = .ok r ↔
      ∃ xs, Line options container argv xs ∧ applyAll xs ⟨store, fun _ => 0, [p], []⟩ = .ok r := by
  constructor
  · intro h
    obtain ⟨xs, hxs⟩ := line_of_parseArgs hp hcontainer (Nat.le_refl _) rfl h
    exact ⟨xs, hxs, (parseArgs_of_line hp hcontainer hxs rfl).symm.trans h⟩
  · rintro ⟨xs, hxs, h⟩
    exact (parseArgs_of_line hp hcontainer hxs rfl).trans h

end

/-! ## What the settings leave behind -/

theorem mem_of_settingNamed {name : Arg} {arg : Option Arg} {x : Setting σ}
    (h : settingNamed options name arg = some x) : x.1 ∈ options := by
  obtain ⟨d, hd, hx⟩ := settingNamed_eq_some h
  obtain ⟨rfl, -⟩ := setting_eq_some hx
  exact List.mem_of_find?_eq_some hd

theorem mem_of_line (hcontainer : container ∈ options) {argv : List Arg} {xs : List (Setting σ)}
    (h : Line options container argv xs) : ∀ x ∈ xs, x.1 ∈ options := by
  induction h with
  | nil => exact fun x hx => nomatch hx
  | @piece pc xs ys rest hpc _ ih =>
    refine List.forall_mem_append.2 ⟨?_, ih⟩
    cases hpc with
    | @names flags last arg xs y _ hxs hy =>
      refine List.forall_mem_append.2 ⟨fun x hx => ?_, List.forall_mem_singleton.2 (mem_of_settingNamed hy)⟩
      obtain ⟨c, -, hc⟩ := Fallible.mem_of_mapM_some hxs hx
      exact mem_of_settingNamed hc
    | long _ hx => exact List.forall_mem_singleton.2 (mem_of_settingNamed hx)
    | assigned _ _ hd => exact List.forall_mem_singleton.2 (List.mem_of_find?_eq_some hd)
    | word => exact List.forall_mem_singleton.2 hcontainer
  | remaining words =>
    intro x hx
    obtain ⟨a, -, rfl⟩ := List.mem_map.1 hx
    exact hcontainer

def timesGiven (xs : List (Setting σ)) (o : Arg) : Nat := (xs.filter (fun x => x.1.longName = o)).length

def storeAll (xs : List (Setting σ)) (store : σ) : Except Arg σ := xs.foldlM (fun s x => x.1.value.parse x.2 s) store

/-- The variables, and how often each option was given. -/
theorem applyAll_eq : ∀ (xs : List (Setting σ)) (r : ParseResult σ), applyAll xs r = (storeAll xs r.store).map
      (fun store => { r with store, results := fun o => r.results o + timesGiven xs o })
  | [], r => rfl
  | (d, arg) :: xs, r => by
    rw [applyAll, parseOption, storeAll, List.foldlM_cons]
    cases hd : d.value.parse arg r.store with
    | error e => rfl
    | ok store =>
      refine (applyAll_eq xs _).trans ?_
      refine congrArg (Except.map · (storeAll xs store)) (funext fun s => ?_)
      refine congrArg (ParseResult.mk s · r.positional r.argv) (funext fun o => ?_)
      simp only [timesGiven, List.filter_cons]
      by_cases ho : d.longName = o
      · simp only [ho, if_true, decide_true, List.length_cons]
        omega
      · simp only [Ne.symm ho, ho, if_false, decide_false, Bool.false_eq_true]

end

end Cxxopts
