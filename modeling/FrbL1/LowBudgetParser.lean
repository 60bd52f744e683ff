import FrbL1.CommandLine
/-!
# LowBudgetParser — the command line without cxxopts

An old compiler's server has a low-budget parser, which knows no options for acquisitions.  It agrees with the other one
wherever that is what is asked of it (`commandLineLow_eq_ok_iff`).
-/
namespace FrbL1
namespace Config

open Cxxopts (Arg OptionDetails Setting Line Piece)

def usage {α : Type} : Except Stop α := .error (.exit 2)

def lowBudgetNames : List Char → CommandLine → Except Stop CommandLine
  | [], c          => .ok c
  | 'v' :: s, c => lowBudgetNames s { c with l1Verbosity := 2 }
  | 'f' :: s, c => lowBudgetNames s { c with options := { c.options with force := true } }
  | 'p' :: s, c => lowBudgetNames s { c with l1bPipeIoDebug := true }
  | 'i' :: s, c => lowBudgetNames s { c with options := { c.options with ignore := true } }
  | 'm' :: s, c => lowBudgetNames s { c with memoryPoolDebug := true }
  | 'w' :: s, c => lowBudgetNames s { c with writeChunkDebug := true }
  | 'c' :: s, c => lowBudgetNames s { c with options := { c.options with crash := true } }
  | 't' :: s, c => lowBudgetNames s { c with options := { c.options with toy := true } }
  | _ :: _, _      => usage

def lowBudgetArgs : List Arg → CommandLine → Except Stop CommandLine
  | [], c                     => .ok c
  | ('-' :: names) :: argv, c => (lowBudgetNames names c).bind (lowBudgetArgs argv)
  | a :: argv, c              =>
    lowBudgetArgs argv { c with options := { c.options with args := c.options.args ++ [a] } }

def CommandLine.init : CommandLine where
  options := {
    help := false, force := false, ignore := false, crash := false, toy := false, acq := none, nfs := false,
    beams := [], args := [] }
  l1Verbosity     := 1
  l1bPipeIoDebug  := false
  memoryPoolDebug := false
  writeChunkDebug := false

def commandLineLow (argv : List Arg) : Except Stop CommandLine :=
  (lowBudgetArgs argv .init).bind (fun c =>
    if c.options.args.length = 4 ∨ (c.options.toy ∧ c.options.args.length = 1) then .ok c else usage)

/-! ## What it sets -/

def CommandLine.add (c : CommandLine) (xs : List (Setting Variables)) : CommandLine where
  options := { c.options with
    force := c.options.force || isGiven xs "force", ignore := c.options.ignore || isGiven xs "ignore",
    crash := c.options.crash || isGiven xs "crash", toy := c.options.toy || isGiven xs "toy",
    args := c.options.args ++ textsOf xs "positional" }
  l1Verbosity     := if isGiven xs "verbose" then 2 else c.l1Verbosity
  l1bPipeIoDebug  := c.l1bPipeIoDebug || isGiven xs "pipe"
  memoryPoolDebug := c.memoryPoolDebug || isGiven xs "memory"
  writeChunkDebug := c.writeChunkDebug || isGiven xs "write"

def letterName : Char → Option String
  | 'v' => some "verbose"
  | 'f' => some "force"
  | 'p' => some "pipe"
  | 'i' => some "ignore"
  | 'm' => some "memory"
  | 'w' => some "write"
  | 'c' => some "crash"
  | 't' => some "toy"
  | _   => none

/-- A word, or letters that both parsers know behind a dash. -/
inductive Plain : Arg → Prop
  | word {a : Arg} : a.head? ≠ some '-' → Plain a
  | names {names : List Char} : names ≠ [] → (∀ c ∈ names, (letterName c).isSome = true) → Plain ('-' :: names)

def letterSetting (c : Char) : Setting Variables := (flag c ((letterName c).getD ""), "true".toList)

theorem letterName_cases {c : Char} {o : String} (h : letterName c = some o) :
    (c, o) ∈ [('v', "verbose"), ('f', "force"), ('p', "pipe"), ('i', "ignore"), ('m', "memory"), ('w', "write"),
      ('c', "crash"), ('t', "toy")] := by
  unfold letterName at h
  split at h <;> first | (obtain rfl := Option.some.inj h; decide) | cases h

theorem letterSetting_spec {c : Char} (h : (letterName c).isSome = true) : c.isAlphanum = true ∧
    Cxxopts.settingNamed l1Options [c] none = some (letterSetting c) := by
  obtain ⟨o, ho⟩ := Option.isSome_iff_exists.1 h
  have hcases := letterName_cases ho
  simp only [List.mem_cons, Prod.mk.injEq, List.not_mem_nil, or_false] at hcases
  rcases hcases with ⟨rfl, -⟩ | ⟨rfl, -⟩ | ⟨rfl, -⟩ | ⟨rfl, -⟩ | ⟨rfl, -⟩ | ⟨rfl, -⟩ | ⟨rfl, -⟩ | ⟨rfl, -⟩ <;>
    exact ⟨rfl, rfl⟩

theorem isGiven_flag (c : Char) (o o' : String) (t : Arg) : isGiven [(flag c o, t)] o' = decide (o = o') := by
  unfold isGiven
  by_cases h : o = o'
  · rw [textsOf_cons_self (congrArg String.toList h), decide_eq_true h]
    rfl
  · rw [textsOf_flag h, decide_eq_false h]
    rfl

theorem lowBudgetNames_cons (c : Char) (s : List Char) (cl : CommandLine) : lowBudgetNames (c :: s) cl =
    if (letterName c).isSome then lowBudgetNames s (cl.add [letterSetting c]) else usage := by
  cases ho : letterName c with
  | none =>
    unfold letterName at ho
    split at ho <;> cases ho
    unfold lowBudgetNames
    split <;> simp_all
  | some o =>
    have hcases := letterName_cases ho
    simp only [List.mem_cons, Prod.mk.injEq, List.not_mem_nil, or_false] at hcases
    rw [Option.isSome_some, if_pos rfl]
    have hpositional : textsOf [letterSetting c] "positional" = [] := by
      rw [letterSetting, ho, Option.getD_some]
      exact textsOf_flag (fun h => by rw [h] at hcases; simp at hcases)
    unfold CommandLine.add
    rw [hpositional, letterSetting, ho, Option.getD_some, List.append_nil]
    simp only [isGiven_flag]
    rcases hcases with ⟨rfl, rfl⟩ | ⟨rfl, rfl⟩ | ⟨rfl, rfl⟩ | ⟨rfl, rfl⟩ | ⟨rfl, rfl⟩ | ⟨rfl, rfl⟩ | ⟨rfl, rfl⟩ |
      ⟨rfl, rfl⟩ <;>
      simp [lowBudgetNames]

theorem add_append (c : CommandLine) (xs ys : List (Setting Variables)) : (c.add xs).add ys = c.add (xs ++ ys) := by
  simp only [CommandLine.add, isGiven_append, textsOf_append, Bool.or_assoc, List.append_assoc]
  congr 1
  cases isGiven xs "verbose" <;> simp

theorem lowBudgetNames_eq_ok_iff : ∀ {names : List Char} {c c' : CommandLine}, lowBudgetNames names c = .ok c' ↔
    (∀ x ∈ names, (letterName x).isSome = true) ∧ c' = c.add (names.map letterSetting)
  | [], c, c' => by
    have hadd : c.add [] = c := by simp [CommandLine.add, isGiven]
    rw [lowBudgetNames, List.map_nil, hadd]
    exact ⟨fun h => ⟨fun x hx => (nomatch hx), (Except.ok.inj h).symm⟩, fun h => congrArg Except.ok h.2.symm⟩
  | x :: names, c, c' => by
    rw [lowBudgetNames_cons, List.forall_mem_cons, List.map_cons]
    by_cases hx : (letterName x).isSome = true
    · rw [if_pos hx, lowBudgetNames_eq_ok_iff, add_append, List.singleton_append, and_iff_right hx]
    · rw [if_neg hx]
      exact ⟨fun h => (nomatch h), fun h => absurd h.1.1 hx⟩

def plainSettings : List Arg → List (Setting Variables)
  | []                     => []
  | ('-' :: names) :: argv => names.map letterSetting ++ plainSettings argv
  | a :: argv              => (positionalOption, a) :: plainSettings argv

theorem add_nil (c : CommandLine) : c.add [] = c := by simp [CommandLine.add, isGiven]

theorem plain_cons_iff {names : List Char} : ('-' :: names = ['-'] ∨ Plain ('-' :: names)) ↔
    ∀ x ∈ names, (letterName x).isSome = true := by
  constructor
  · rintro (h | h)
    · obtain rfl : names = [] := (List.cons.inj h).2
      exact fun x hx => nomatch hx
    · cases h with
      | word h => exact absurd rfl h
      | names _ h => exact h
  · intro h
    by_cases hnil : names = []
    · exact .inl (by rw [hnil])
    · exact .inr (.names hnil h)

section
variable {a : Arg} (ha : a.head? ≠ some '-')
include ha

theorem lowBudgetArgs_word (argv : List Arg) (c : CommandLine) : lowBudgetArgs (a :: argv) c =
    lowBudgetArgs argv { c with options := { c.options with args := c.options.args ++ [a] } } := by
  cases a with
  | nil => rfl
  | cons x names =>
    have hx : x ≠ '-' := fun h => ha (congrArg some h)
    rw [lowBudgetArgs]
    exact fun names' h => hx (List.cons.inj h).1

theorem plainSettings_word (argv : List Arg) :
    plainSettings (a :: argv) = (positionalOption, a) :: plainSettings argv := by
  cases a with
  | nil => rfl
  | cons x names =>
    have hx : x ≠ '-' := fun h => ha (congrArg some h)
    rw [plainSettings]
    exact fun names' h => hx (List.cons.inj h).1

theorem optionMatcher_of_word : Cxxopts.optionMatcher a = none := by
  unfold Cxxopts.optionMatcher
  split <;> first | rfl | exact absurd rfl ha

end

theorem add_word (c : CommandLine) (a : Arg) : c.add [(positionalOption, a)] =
    { c with options := { c.options with args := c.options.args ++ [a] } } := by
  have hgiven : ∀ o : String, positionalOption.longName ≠ o.toList → isGiven [(positionalOption, a)] o = false :=
    fun o ho => by rw [isGiven, textsOf_cons_ne ho]; rfl
  rw [CommandLine.add, textsOf_cons_self rfl, textsOf_nil, hgiven "force" (by decide), hgiven "ignore" (by decide),
    hgiven "crash" (by decide), hgiven "toy" (by decide), hgiven "verbose" (by decide), hgiven "pipe" (by decide),
    hgiven "memory" (by decide), hgiven "write" (by decide)]
  simp only [Bool.or_false, Bool.false_eq_true, if_false]

theorem lowBudgetArgs_eq_ok_iff : ∀ {argv : List Arg} {c c' : CommandLine}, lowBudgetArgs argv c = .ok c' ↔
    (∀ a ∈ argv, a = ['-'] ∨ Plain a) ∧ c' = c.add (plainSettings argv)
  | [], c, c' => by
    rw [lowBudgetArgs, plainSettings, add_nil]
    exact ⟨fun h => ⟨fun x hx => (nomatch hx), (Except.ok.inj h).symm⟩, fun h => congrArg Except.ok h.2.symm⟩
  | a :: argv, c, c' => by
    rw [List.forall_mem_cons]
    by_cases ha : a.head? = some '-'
    · obtain ⟨names, rfl⟩ : ∃ names, a = '-' :: names := by
        cases a with
        | nil => cases ha
        | cons x names => exact ⟨names, by rw [Option.some.inj ha]⟩
      rw [lowBudgetArgs, plainSettings, plain_cons_iff]
      constructor
      · intro h
        cases hnames : lowBudgetNames names c with
        | error e =>
          rw [hnames] at h
          cases h
        | ok c₁ =>
          rw [hnames] at h
          obtain ⟨hletters, rfl⟩ := lowBudgetNames_eq_ok_iff.1 hnames
          obtain ⟨hplain, rfl⟩ := lowBudgetArgs_eq_ok_iff.1 h
          exact ⟨⟨hletters, hplain⟩, add_append ..⟩
      · rintro ⟨⟨hletters, hplain⟩, rfl⟩
        rw [lowBudgetNames_eq_ok_iff.2 ⟨hletters, rfl⟩, ← add_append]
        exact lowBudgetArgs_eq_ok_iff.2 ⟨hplain, rfl⟩
    · have hword : a = ['-'] ∨ Plain a := .inr (.word ha)
      rw [lowBudgetArgs_word ha, plainSettings_word ha, ← add_word, lowBudgetArgs_eq_ok_iff, add_append,
        List.singleton_append, and_iff_right hword]

theorem line_of_plain : ∀ {argv : List Arg}, (∀ a ∈ argv, Plain a) →
    Line l1Options positionalOption argv (plainSettings argv)
  | [], _ => .nil
  | a :: argv, h => by
    obtain ⟨ha, hargv⟩ := List.forall_mem_cons.1 h
    have ih := line_of_plain hargv
    cases ha with
    | word hword =>
      rw [plainSettings_word hword]
      exact .piece (p := .word a) (.word (fun heq => hword (by rw [heq]; rfl)) (optionMatcher_of_word hword)) ih
    | @names names hne hletters =>
      obtain ⟨flags, last, rfl⟩ : ∃ flags last, names = flags ++ [last] :=
        ⟨names.dropLast, names.getLast hne, (List.dropLast_append_getLast hne).symm⟩
      rw [plainSettings, List.map_append]
      have hspec := fun x hx => letterSetting_spec (hletters x hx)
      refine .piece (p := .names flags last none) (.names (fun x hx => (hspec x hx).1) ?_
        (hspec last (by simp)).2) ih
      exact Fallible.mapM_eq_some (fun x hx => (hspec x (List.mem_append_left _ hx)).2)

theorem textsOf_plainSettings {o : String} (ho : o ∈ ["help", "nfs", "acq", "beam"]) : ∀ argv : List Arg,
    textsOf (plainSettings argv) o = []
  | [] => rfl
  | a :: argv => by
    have hpositional : positionalOption.longName ≠ o.toList := by
      simp only [List.mem_cons, List.not_mem_nil, or_false] at ho
      obtain rfl | rfl | rfl | rfl := ho <;> decide
    have hletter : ∀ c : Char, (letterName c).getD "" ≠ o := fun c => by
      cases hc : letterName c with
      | none =>
        rintro rfl
        simp at ho
      | some o' =>
        rintro rfl
        have hcases := letterName_cases hc
        simp only [Option.getD_some, List.mem_cons, Prod.mk.injEq, List.not_mem_nil, or_false] at ho hcases
        obtain rfl | rfl | rfl | rfl := ho <;> simp at hcases
    have hletters : ∀ names : List Char, textsOf (names.map letterSetting) o = [] := fun names => by
      induction names with
      | nil => rfl
      | cons c names ih => rw [List.map_cons, letterSetting, textsOf_flag (hletter c), ih]
    by_cases ha : a.head? = some '-'
    · obtain ⟨names, rfl⟩ := List.head?_eq_some_iff.1 ha
      rw [plainSettings, textsOf_append, hletters, textsOf_plainSettings ho argv, List.nil_append]
    · rw [plainSettings_word ha, textsOf_cons_ne hpositional, textsOf_plainSettings ho argv]

theorem flagsRead_plainSettings : ∀ argv : List Arg, FlagsRead (plainSettings argv)
  | [] => fun x hx => nomatch hx
  | a :: argv => by
    have hletters : ∀ names : List Char, FlagsRead (names.map letterSetting) := fun names => by
      induction names with
      | nil => exact fun x hx => nomatch hx
      | cons c names ih => exact flagsRead_cons_flag.2 ⟨⟨true, rfl⟩, ih⟩
    by_cases ha : a.head? = some '-'
    · obtain ⟨names, rfl⟩ := List.head?_eq_some_iff.1 ha
      rw [plainSettings]
      exact flagsRead_append.2 ⟨hletters names, flagsRead_plainSettings argv⟩
    · rw [plainSettings_word ha]
      exact (flagsRead_cons rfl).2 (flagsRead_plainSettings argv)

theorem init_add (argv : List Arg) : CommandLine.init.add (plainSettings argv) = said (plainSettings argv) [] := by
  have hnone : ∀ o ∈ ["help", "nfs", "acq", "beam"], isGiven (plainSettings argv) o = false := fun o ho => by
    rw [isGiven, textsOf_plainSettings ho]
    rfl
  unfold CommandLine.add said
  rw [hnone "help" (by decide), hnone "nfs" (by decide), textsOf_plainSettings (o := "acq") (by decide)]
  simp only [CommandLine.init, Bool.false_or, List.nil_append, List.getLast?_nil]

/-- **The two parsers agree** on all command lines without a lone dash: the low-budget one accepts those of words and
known letters that cxxopts accepts, with the same result.  A lone dash is a word for cxxopts and nothing for the other. -/
theorem commandLineLow_eq_ok_iff {argv : List Arg} (hdash : ['-'] ∉ argv) {c : CommandLine} :
    commandLineLow argv = .ok c ↔ (∀ a ∈ argv, Plain a) ∧ commandLine argv = .ok c := by
  have hplain : (∀ a ∈ argv, a = ['-'] ∨ Plain a) ↔ ∀ a ∈ argv, Plain a :=
    forall₂_congr (fun a ha => or_iff_right (fun h => hdash (h ▸ ha)))
  have hline : (∀ a ∈ argv, Plain a) → commandLine argv = (checkArgs (said (plainSettings argv) []).options).map
      (fun _ => said (plainSettings argv) []) := fun h =>
    commandLine_of_line (line_of_plain h) (flagsRead_plainSettings argv)
      (by rw [textsOf_plainSettings (by decide)]; rfl)
  have hhelp : (said (plainSettings argv) []).options.help = false := by
    show isGiven (plainSettings argv) "help" = false
    rw [isGiven, textsOf_plainSettings (by decide)]
    rfl
  have hargs := checkArgs_eq_ok (o := (said (plainSettings argv) []).options)
  unfold commandLineLow
  constructor
  · intro h
    obtain ⟨c', hc', h⟩ := bind_eq_ok h
    obtain ⟨hknown, rfl⟩ := lowBudgetArgs_eq_ok_iff.1 hc'
    rw [init_add] at h
    split at h
    · rename_i hlength
      cases h
      refine ⟨hplain.1 hknown, ?_⟩
      rw [hline (hplain.1 hknown), hargs.2 ⟨hhelp, hlength.imp id And.symm⟩]
      rfl
    · cases h
  · rintro ⟨h, hc⟩
    rw [hline h] at hc
    obtain ⟨u, hcheck, rfl⟩ := Fallible.map_eq_ok hc
    obtain ⟨-, hlength⟩ := hargs.1 hcheck
    show Except.bind _ _ = _
    rw [lowBudgetArgs_eq_ok_iff.2 ⟨hplain.2 h, rfl⟩, init_add]
    exact if_pos (hlength.imp id And.symm)

theorem commandLineLow_eq_ok_iff_toy : ∃ c, commandLineLow ["-vt".toList, "l1.yaml".toList] = .ok c ∧
    commandLine ["-vt".toList, "l1.yaml".toList] = .ok c := by
  obtain ⟨c, hc⟩ : ∃ c, commandLineLow ["-vt".toList, "l1.yaml".toList] = .ok c := ⟨_, rfl⟩
  exact ⟨c, hc, ((commandLineLow_eq_ok_iff (by decide)).1 hc).2⟩

end Config
end FrbL1
