import FrbL1.CxxoptsValues
import FrbL1.L1Config
/-!
# CommandLine — the command line of the L1 server

The first lines of the constructor of `l1_config`, with `cxxopts`.  What is accepted, and what it means, is said by
`commandLine_eq_ok_iff`; that every choice of options can be written is `commandLine_print`.
-/
namespace FrbL1
namespace Config

open Posix (Filename)
open Cxxopts (Arg OptionDetails Setting Line Piece)

structure CommandLine where
  options          : Options
  l1Verbosity      : Int
  l1bPipeIoDebug   : Bool
  memoryPoolDebug  : Bool
  writeChunkDebug  : Bool

/-! ## With cxxopts -/

structure Variables where
  acqName  : List Char
  acqBeams : List Int
  args     : List Filename

/-- An option with a `bool` of its own, which nobody reads. -/
def flag (shortName : Char) (longName : String) : OptionDetails Variables where
  shortName := some shortName
  longName  := longName.toList
  value     := {
    isContainer   := false
    implicitValue := some "true".toList
    parse         := fun text s => (Cxxopts.booleanParser text).map (fun _ => s) }

def acqOption : OptionDetails Variables where
  shortName := some 'a'
  longName  := "acq".toList
  value     := { isContainer := false, implicitValue := none, parse := fun text s => .ok { s with acqName := text } }

def beamOption : OptionDetails Variables where
  shortName := some 'b'
  longName  := "beam".toList
  value     := {
    isContainer   := true
    implicitValue := none
    parse         := fun text s =>
      (Cxxopts.integerParser text).map (fun b => { s with acqBeams := s.acqBeams ++ [b] }) }

def positionalOption : OptionDetails Variables where
  shortName := none
  longName  := "positional".toList
  value     := {
    isContainer   := true
    implicitValue := none
    parse         := fun text s => .ok { s with args := s.args ++ [text] } }

def l1Options : List (OptionDetails Variables) :=
  [flag 'h' "help", flag 'v' "verbose", flag 'f' "force", flag 'p' "pipe", flag 'i' "ignore", flag 'm' "memory",
    flag 'w' "write", flag 'c' "crash", flag 't' "toy", acqOption, flag 'n' "nfs", beamOption, positionalOption]

def given (opts : Cxxopts.ParseResult Variables) (o : String) : Bool := 0 < opts.count l1Options o.toList

def members (opts : Cxxopts.ParseResult Variables) : CommandLine where
  options := {
    help := given opts "help", force := given opts "f", ignore := given opts "i", crash := given opts "c",
    toy := given opts "t", acq := if given opts "acq" then some opts.store.acqName else none, nfs := given opts "nfs",
    beams := opts.store.acqBeams, args := opts.store.args }
  l1Verbosity     := if given opts "v" then 2 else 1
  l1bPipeIoDebug  := given opts "p"
  memoryPoolDebug := given opts "m"
  writeChunkDebug := given opts "w"

/-- The first lines of the constructor; `argv` is without the program's name. -/
def commandLine (argv : List Arg) : Except Stop CommandLine :=
  match Cxxopts.parse l1Options ["positional".toList] argv ⟨[], [], []⟩ with
  | .error what => .error (.threw what)
  | .ok opts    => (checkArgs (members opts).options).map (fun _ => members opts)

/-! ## What the settings say -/

def textsOf (xs : List (Setting Variables)) (o : String) : List Arg :=
  xs.filterMap (fun x => if x.1.longName = o.toList then some x.2 else none)

def isGiven (xs : List (Setting Variables)) (o : String) : Bool := !(textsOf xs o).isEmpty

/-- What settings say, with these numbers for the beams. -/
def said (xs : List (Setting Variables)) (beams : List Int) : CommandLine where
  options := {
    help := isGiven xs "help", force := isGiven xs "force", ignore := isGiven xs "ignore", crash := isGiven xs "crash",
    toy := isGiven xs "toy", acq := (textsOf xs "acq").getLast?, nfs := isGiven xs "nfs", beams,
    args := textsOf xs "positional" }
  l1Verbosity     := if isGiven xs "verbose" then 2 else 1
  l1bPipeIoDebug  := isGiven xs "pipe"
  memoryPoolDebug := isGiven xs "memory"
  writeChunkDebug := isGiven xs "write"

def FlagsRead (xs : List (Setting Variables)) : Prop :=
  ∀ x ∈ xs, ∀ c o, x.1 = flag c o → ∃ b, Cxxopts.booleanParser x.2 = .ok b

theorem mem_l1Options {d : OptionDetails Variables} (h : d ∈ l1Options) : d = acqOption ∨ d = beamOption ∨
    d = positionalOption ∨ ∃ c o, d = flag c o ∧ o ∉ ["acq", "beam", "positional"] := by
  simp only [l1Options, List.mem_cons, List.not_mem_nil, or_false] at h
  rcases h with h | h | h | h | h | h | h | h | h | h | h | h | h
  all_goals first
    | exact .inl h
    | exact .inr (.inl h)
    | exact .inr (.inr (.inl h))
    | exact .inr (.inr (.inr ⟨_, _, h, by decide⟩))

@[simp] theorem textsOf_nil (o : String) : textsOf [] o = [] := rfl

section
variable {d : OptionDetails Variables} {t : Arg} {xs : List (Setting Variables)} {o : String}

theorem textsOf_cons_self (h : d.longName = o.toList) : textsOf ((d, t) :: xs) o = t :: textsOf xs o := by
  simp only [textsOf, List.filterMap_cons, h, if_true]

theorem textsOf_cons_ne (h : d.longName ≠ o.toList) : textsOf ((d, t) :: xs) o = textsOf xs o := by
  simp only [textsOf, List.filterMap_cons, h, if_false]

theorem length_textsOf : ∀ (xs : List (Setting Variables)) (o : String),
    (textsOf xs o).length = Cxxopts.timesGiven xs o.toList
  | [], o => rfl
  | (d, t) :: xs, o => by
    have ih := length_textsOf xs o
    unfold Cxxopts.timesGiven at ih ⊢
    by_cases h : d.longName = o.toList
    · rw [textsOf_cons_self h, List.length_cons, ih, List.filter_cons_of_pos (by simpa using h), List.length_cons]
    · rw [textsOf_cons_ne h, ih, List.filter_cons_of_neg (by simpa using h)]

theorem isGiven_eq (xs : List (Setting Variables)) (o : String) :
    isGiven xs o = decide (0 < Cxxopts.timesGiven xs o.toList) := by
  rw [← length_textsOf]
  unfold isGiven
  cases textsOf xs o <;> rfl

theorem textsOf_flag {c : Char} {o' : String} (h : o' ≠ o) : textsOf ((flag c o', t) :: xs) o = textsOf xs o :=
  textsOf_cons_ne (fun heq => h (String.toList_inj.1 heq))

end

theorem flagsRead_cons {d : OptionDetails Variables} {t : Arg} {xs : List (Setting Variables)}
    (h : d.value.implicitValue = none) : FlagsRead ((d, t) :: xs) ↔ FlagsRead xs := by
  refine List.forall_mem_cons.trans (and_iff_right (fun c o heq => ?_))
  rw [show d = flag c o from heq] at h
  cases h

theorem flagsRead_cons_flag {c : Char} {o : String} {t : Arg} {xs : List (Setting Variables)} :
    FlagsRead ((flag c o, t) :: xs) ↔ (∃ b, Cxxopts.booleanParser t = .ok b) ∧ FlagsRead xs :=
  List.forall_mem_cons.trans (and_congr_left' ⟨fun h => h c o rfl, fun h _ _ _ => h⟩)

/-- **What the options store**: the last name, all numbers, all positional arguments. -/
theorem storeAll_eq_ok_iff : ∀ {xs : List (Setting Variables)} {s s' : Variables}, (∀ x ∈ xs, x.1 ∈ l1Options) →
    (Cxxopts.storeAll xs s = .ok s' ↔ ∃ beams, FlagsRead xs ∧
      (textsOf xs "beam").mapM Cxxopts.integerParser = .ok beams ∧
      s' = ⟨(textsOf xs "acq").getLast?.getD s.acqName, s.acqBeams ++ beams, s.args ++ textsOf xs "positional"⟩)
  | [], s, s', _ => by
    have hs : Variables.mk s.acqName (s.acqBeams ++ []) (s.args ++ []) = s := by
      rw [List.append_nil, List.append_nil]
    constructor
    · intro h
      obtain rfl := Except.ok.inj h
      exact ⟨[], List.forall_mem_nil _, rfl, hs.symm⟩
    · rintro ⟨beams, -, hbeams, rfl⟩
      obtain rfl : [] = beams := Except.ok.inj hbeams
      exact congrArg Except.ok hs.symm
  | (d, t) :: xs, s, s', hmem => by
    obtain ⟨hd, hxs⟩ := List.forall_mem_cons.1 hmem
    rw [Cxxopts.storeAll, List.foldlM_cons]
    obtain rfl | rfl | rfl | ⟨c, o, rfl, ho⟩ := mem_l1Options hd
    · show Cxxopts.storeAll xs { s with acqName := t } = .ok s' ↔ _
      rw [storeAll_eq_ok_iff hxs, flagsRead_cons rfl, textsOf_cons_self (o := "acq") rfl,
        textsOf_cons_ne (o := "beam") (by decide), textsOf_cons_ne (o := "positional") (by decide), List.getLast?_cons]
      rfl
    · show ((Cxxopts.integerParser t).map (fun b => { s with acqBeams := s.acqBeams ++ [b] })).bind
        (Cxxopts.storeAll xs) = .ok s' ↔ _
      rw [flagsRead_cons rfl, textsOf_cons_self (o := "beam") rfl, textsOf_cons_ne (o := "acq") (by decide),
        textsOf_cons_ne (o := "positional") (by decide), List.mapM_cons]
      cases hb : Cxxopts.integerParser t with
      | error e =>
        constructor
        · rintro ⟨⟩
        · rintro ⟨beams, -, hbeams, -⟩
          cases hbeams
      | ok b =>
        show Cxxopts.storeAll xs _ = .ok s' ↔ _
        rw [storeAll_eq_ok_iff hxs]
        constructor
        · rintro ⟨beams, hread, hbeams, rfl⟩
          refine ⟨b :: beams, hread, by rw [hbeams]; rfl, ?_⟩
          rw [List.append_assoc, List.singleton_append]
        · rintro ⟨beams, hread, hbeams, rfl⟩
          obtain ⟨_, hb', hbeams⟩ := bind_eq_ok hbeams
          obtain ⟨beams', hbeams', hcons⟩ := bind_eq_ok hbeams
          cases hb'
          cases hcons
          refine ⟨beams', hread, hbeams', ?_⟩
          rw [List.append_assoc, List.singleton_append]
    · show Cxxopts.storeAll xs { s with args := s.args ++ [t] } = .ok s' ↔ _
      rw [storeAll_eq_ok_iff hxs, flagsRead_cons rfl, textsOf_cons_self (o := "positional") rfl,
        textsOf_cons_ne (o := "beam") (by decide), textsOf_cons_ne (o := "acq") (by decide)]
      simp only [List.append_assoc, List.singleton_append]
    · simp only [List.mem_cons, List.not_mem_nil, or_false, not_or] at ho
      show ((Cxxopts.booleanParser t).map (fun _ => s)).bind (Cxxopts.storeAll xs) = .ok s' ↔ _
      rw [flagsRead_cons_flag, textsOf_flag ho.1, textsOf_flag ho.2.1, textsOf_flag ho.2.2]
      cases hb : Cxxopts.booleanParser t with
      | error e =>
        constructor
        · rintro ⟨⟩
        · rintro ⟨beams, ⟨⟨b, hb⟩, -⟩, -⟩
          cases hb
      | ok b =>
        show Cxxopts.storeAll xs s = .ok s' ↔ _
        rw [storeAll_eq_ok_iff hxs]
        simp only [Except.ok.injEq, exists_eq', true_and]

/-! ## What is accepted -/

theorem find_positional : Cxxopts.find l1Options "positional".toList = some positionalOption := rfl

theorem given_eq {store : Variables} {xs : List (Setting Variables)} {positional argv : List Arg}
    (o o' : String) {d : OptionDetails Variables} (hd : Cxxopts.find l1Options o.toList = some d)
    (ho : d.longName = o'.toList) :
    given ⟨store, fun o => 0 + Cxxopts.timesGiven xs o, positional, argv⟩ o = isGiven xs o' := by
  unfold given Cxxopts.ParseResult.count
  rw [isGiven_eq, hd]
  simp only [ho, Nat.zero_add]

theorem members_eq {xs : List (Setting Variables)} {positional argv : List Arg} {beams : List Int} :
    members ⟨⟨(textsOf xs "acq").getLast?.getD [], beams, textsOf xs "positional"⟩,
      fun o => 0 + Cxxopts.timesGiven xs o, positional, argv⟩ = said xs beams := by
  have hacq : (if isGiven xs "acq" then some ((textsOf xs "acq").getLast?.getD []) else none) =
      (textsOf xs "acq").getLast? := by
    unfold isGiven
    cases h : textsOf xs "acq" with
    | nil => rfl
    | cons t ts => simp [List.getLast?_cons]
  unfold members said
  rw [given_eq "help" "help" rfl rfl, given_eq "f" "force" rfl rfl,
    given_eq "i" "ignore" rfl rfl, given_eq "c" "crash" rfl rfl,
    given_eq "t" "toy" rfl rfl, given_eq "acq" "acq" rfl rfl,
    given_eq "nfs" "nfs" rfl rfl, given_eq "v" "verbose" rfl rfl,
    given_eq "p" "pipe" rfl rfl, given_eq "m" "memory" rfl rfl,
    given_eq "w" "write" rfl rfl, hacq]

theorem checkArgs_eq_ok {o : Options} :
    checkArgs o = .ok () ↔ o.help = false ∧ (o.args.length = 4 ∨ o.args.length = 1 ∧ o.toy = true) := by
  unfold checkArgs
  split
  · rename_i h
    refine ⟨fun h => (nomatch h), fun ⟨hhelp, hargs⟩ => ?_⟩
    rcases h with h | h
    · rw [hhelp] at h
      cases h
    · exact absurd hargs h
  · rename_i h
    obtain ⟨hhelp, hargs⟩ := not_or.1 h
    exact iff_of_true rfl ⟨Bool.not_eq_true _ ▸ hhelp, not_not.1 hargs⟩

theorem mem_l1Options_of_line {argv : List Arg} {xs : List (Setting Variables)}
    (h : Line l1Options positionalOption argv xs) : ∀ x ∈ xs, x.1 ∈ l1Options :=
  Cxxopts.mem_of_line (List.mem_of_find?_eq_some find_positional) h

theorem commandLine_of_line {argv : List Arg} {xs : List (Setting Variables)} {beams : List Int}
    (hline : Line l1Options positionalOption argv xs) (hread : FlagsRead xs)
    (hbeams : (textsOf xs "beam").mapM Cxxopts.integerParser = .ok beams) :
    commandLine argv = (checkArgs (said xs beams).options).map (fun _ => said xs beams) := by
  have hstore := (storeAll_eq_ok_iff (s := ⟨[], [], []⟩) (mem_l1Options_of_line hline)).2 ⟨beams, hread, hbeams, rfl⟩
  have hparse : Cxxopts.parse l1Options ["positional".toList] argv ⟨[], [], []⟩ = .ok _ :=
    (Cxxopts.parse_eq_ok_iff find_positional rfl).2 ⟨xs, hline, (Cxxopts.applyAll_eq _ _).trans (congrArg _ hstore)⟩
  rw [commandLine, hparse]
  simp only [List.nil_append, members_eq]

/-- **The command lines that the server accepts**, and what it makes of them: the flags that are given, the last
acquisition name, all beams and all positional arguments in order. -/
theorem commandLine_eq_ok_iff {argv : List Arg} {c : CommandLine} :
    commandLine argv = .ok c ↔ ∃ xs beams, Line l1Options positionalOption argv xs ∧ FlagsRead xs ∧
      (textsOf xs "beam").mapM Cxxopts.integerParser = .ok beams ∧ c = said xs beams ∧
      c.options.help = false ∧ (c.options.args.length = 4 ∨ c.options.args.length = 1 ∧ c.options.toy = true) := by
  constructor
  · intro h
    unfold commandLine at h
    cases hparse : Cxxopts.parse l1Options ["positional".toList] argv ⟨[], [], []⟩ with
    | error e =>
      rw [hparse] at h
      cases h
    | ok opts =>
      rw [hparse] at h
      obtain ⟨xs, hline, happly⟩ := (Cxxopts.parse_eq_ok_iff find_positional rfl).1 hparse
      rw [Cxxopts.applyAll_eq] at happly
      obtain ⟨store, hstore, rfl⟩ := Fallible.map_eq_ok happly
      obtain ⟨beams, hread, hbeams, rfl⟩ := (storeAll_eq_ok_iff (mem_l1Options_of_line hline)).1 hstore
      obtain ⟨u, hcheck, rfl⟩ := Fallible.map_eq_ok h
      simp only [List.nil_append, members_eq] at hcheck ⊢
      exact ⟨xs, beams, hline, hread, hbeams, rfl, checkArgs_eq_ok.1 hcheck⟩
  · rintro ⟨xs, beams, hline, hread, hbeams, rfl, hargs⟩
    rw [commandLine_of_line hline hread hbeams, checkArgs_eq_ok.2 hargs]
    rfl

/-! ## Every command line can be written -/

theorem line_flag {c : Char} {d : OptionDetails Variables} {v : Arg} (hc : c.isAlphanum = true)
    (hd : Cxxopts.find l1Options [c] = some d) (hv : d.value.implicitValue = some v) {argv : List Arg}
    {ys : List (Setting Variables)} (h : Line l1Options positionalOption argv ys) :
    Line l1Options positionalOption (['-', c] :: argv) ((d, v) :: ys) := by
  have hflags : ([] : List Char).mapM (fun c => Cxxopts.settingNamed l1Options [c] none) = some [] := rfl
  refine .piece (p := .names [] c none) (.names (fun x hx => ?_) hflags ?_) h
  · rw [List.mem_singleton.1 hx]
    exact hc
  · rw [Cxxopts.settingNamed, hd]
    exact congrArg (Option.map (fun v => (d, v))) hv

theorem line_option {c : Char} {d : OptionDetails Variables} (hc : c.isAlphanum = true)
    (hd : Cxxopts.find l1Options [c] = some d) (hv : d.value.implicitValue = none) (t : Arg) {argv : List Arg}
    {ys : List (Setting Variables)} (h : Line l1Options positionalOption argv ys) :
    Line l1Options positionalOption (['-', c] :: t :: argv) ((d, t) :: ys) := by
  have hflags : ([] : List Char).mapM (fun c => Cxxopts.settingNamed l1Options [c] none) = some [] := rfl
  refine .piece (p := .names [] c (some t)) (.names (fun x hx => ?_) hflags ?_) h
  · rw [List.mem_singleton.1 hx]
    exact hc
  · rw [Cxxopts.settingNamed, hd]
    simp [OptionDetails.setting, hv]

def flagArg (b : Bool) (c : Char) : List Arg := if b then [['-', c]] else []

/-- One way to write a command line: the flags, the acquisition, and everything else behind `--`. -/
def CommandLine.print (c : CommandLine) : List Arg :=
  flagArg (c.l1Verbosity = 2) 'v' ++ flagArg c.options.force 'f' ++ flagArg c.l1bPipeIoDebug 'p' ++
    flagArg c.options.ignore 'i' ++ flagArg c.memoryPoolDebug 'm' ++ flagArg c.writeChunkDebug 'w' ++
    flagArg c.options.crash 'c' ++ flagArg c.options.toy 't' ++ flagArg c.options.nfs 'n' ++
    c.options.acq.toList.flatMap (fun a => [['-', 'a'], a]) ++
    c.options.beams.flatMap (fun b => [['-', 'b'], FileUtils.toString b]) ++ ['-', '-'] :: c.options.args

/-- A command line that does not end in the help text. -/
structure CommandLine.Usable (c : CommandLine) : Prop where
  help      : c.options.help = false
  args      : c.options.args.length = 4 ∨ c.options.args.length = 1 ∧ c.options.toy = true
  beams     : ∀ b ∈ c.options.beams, IsInt b
  verbosity : c.l1Verbosity = 1 ∨ c.l1Verbosity = 2

def flagSetting (b : Bool) (c : Char) (o : String) : List (Setting Variables) :=
  if b then [(flag c o, "true".toList)] else []

theorem line_flagArg (b : Bool) {c : Char} {o : String} (hc : c.isAlphanum = true)
    (hd : Cxxopts.find l1Options [c] = some (flag c o)) {argv : List Arg} {ys : List (Setting Variables)}
    (h : Line l1Options positionalOption argv ys) :
    Line l1Options positionalOption (flagArg b c ++ argv) (flagSetting b c o ++ ys) := by
  cases b
  · exact h
  · exact line_flag hc hd rfl h

theorem line_beams {argv : List Arg} {ys : List (Setting Variables)} (h : Line l1Options positionalOption argv ys) :
    ∀ beams : List Int, Line l1Options positionalOption
      (beams.flatMap (fun b => [['-', 'b'], FileUtils.toString b]) ++ argv)
      (beams.map (fun b => (beamOption, FileUtils.toString b)) ++ ys)
  | []         => h
  | b :: beams => line_option (d := beamOption) rfl rfl rfl (FileUtils.toString b) (line_beams h beams)

theorem textsOf_append (xs ys : List (Setting Variables)) (o : String) :
    textsOf (xs ++ ys) o = textsOf xs o ++ textsOf ys o := List.filterMap_append

theorem isGiven_append (xs ys : List (Setting Variables)) (o : String) :
    isGiven (xs ++ ys) o = (isGiven xs o || isGiven ys o) := by
  unfold isGiven
  rw [textsOf_append]
  cases textsOf xs o <;> rfl

theorem textsOf_map (d : OptionDetails Variables) (ts : List Arg) (o : String) :
    textsOf (ts.map (fun t => (d, t))) o = if d.longName = o.toList then ts else [] := by
  unfold textsOf
  rw [List.filterMap_map]
  split <;> rename_i h <;> simp [h]

theorem textsOf_flagSetting (b : Bool) (c : Char) (o o' : String) :
    textsOf (flagSetting b c o) o' = if b ∧ o = o' then ["true".toList] else [] := by
  unfold flagSetting
  cases b
  · rfl
  · by_cases h : o = o'
    · rw [if_pos rfl, if_pos ⟨rfl, h⟩, textsOf_cons_self (congrArg String.toList h), textsOf_nil]
    · rw [if_pos rfl, if_neg (fun hb => h hb.2), textsOf_flag h, textsOf_nil]

theorem isGiven_flagSetting (b : Bool) (c : Char) (o o' : String) :
    isGiven (flagSetting b c o) o' = (b && decide (o = o')) := by
  unfold isGiven
  rw [textsOf_flagSetting]
  cases b <;> by_cases h : o = o' <;> simp [h]

theorem isGiven_map (d : OptionDetails Variables) (ts : List Arg) (o : String) :
    isGiven (ts.map (fun t => (d, t))) o = (decide (d.longName = o.toList) && !ts.isEmpty) := by
  unfold isGiven
  rw [textsOf_map]
  split <;> rename_i h <;> simp [h]

def CommandLine.settings (c : CommandLine) : List (Setting Variables) :=
  flagSetting (c.l1Verbosity = 2) 'v' "verbose" ++ flagSetting c.options.force 'f' "force" ++
    flagSetting c.l1bPipeIoDebug 'p' "pipe" ++ flagSetting c.options.ignore 'i' "ignore" ++
    flagSetting c.memoryPoolDebug 'm' "memory" ++ flagSetting c.writeChunkDebug 'w' "write" ++
    flagSetting c.options.crash 'c' "crash" ++ flagSetting c.options.toy 't' "toy" ++
    flagSetting c.options.nfs 'n' "nfs" ++
    c.options.acq.toList.map (fun a => (acqOption, a)) ++
    (c.options.beams.map FileUtils.toString).map (fun t => (beamOption, t)) ++
    c.options.args.map (fun a => (positionalOption, a))

theorem line_print (c : CommandLine) : Line l1Options positionalOption c.print c.settings := by
  have hacq : ∀ {argv : List Arg} {ys : List (Setting Variables)}, Line l1Options positionalOption argv ys →
      Line l1Options positionalOption (c.options.acq.toList.flatMap (fun a => [['-', 'a'], a]) ++ argv)
        (c.options.acq.toList.map (fun a => (acqOption, a)) ++ ys) := fun h => by
    cases c.options.acq with
    | none => exact h
    | some a => exact line_option (d := acqOption) rfl rfl rfl a h
  unfold CommandLine.print CommandLine.settings
  simp only [List.append_assoc, List.map_map]
  exact line_flagArg _ rfl rfl (line_flagArg _ rfl rfl (line_flagArg _ rfl rfl (line_flagArg _ rfl rfl
    (line_flagArg _ rfl rfl (line_flagArg _ rfl rfl (line_flagArg _ rfl rfl (line_flagArg _ rfl rfl
    (line_flagArg _ rfl rfl (hacq (line_beams (.remaining c.options.args) c.options.beams))))))))))

theorem flagsRead_append {xs ys : List (Setting Variables)} : FlagsRead (xs ++ ys) ↔ FlagsRead xs ∧ FlagsRead ys :=
  List.forall_mem_append

theorem flagsRead_flagSetting (b : Bool) (c : Char) (o : String) : FlagsRead (flagSetting b c o) := by
  cases b
  · exact fun x hx => nomatch hx
  · exact flagsRead_cons_flag.2 ⟨⟨true, rfl⟩, fun x hx => nomatch hx⟩

theorem flagsRead_map {d : OptionDetails Variables} (h : d.value.implicitValue = none) :
    ∀ ts : List Arg, FlagsRead (ts.map (fun t => (d, t)))
  | []      => fun _ hx => nomatch hx
  | _ :: ts => (flagsRead_cons h).2 (flagsRead_map h ts)

theorem flagsRead_settings (c : CommandLine) : FlagsRead c.settings := by
  simp only [CommandLine.settings, flagsRead_append, flagsRead_flagSetting, true_and]
  exact ⟨⟨flagsRead_map rfl _, flagsRead_map rfl _⟩, flagsRead_map rfl _⟩

theorem isGiven_settings (c : CommandLine) {o : String} (ho : o ∉ ["acq", "beam", "positional"]) :
    isGiven c.settings o = (decide (c.l1Verbosity = 2) && decide ("verbose" = o) ||
      c.options.force && decide ("force" = o) || c.l1bPipeIoDebug && decide ("pipe" = o) ||
      c.options.ignore && decide ("ignore" = o) || c.memoryPoolDebug && decide ("memory" = o) ||
      c.writeChunkDebug && decide ("write" = o) || c.options.crash && decide ("crash" = o) ||
      c.options.toy && decide ("toy" = o) || c.options.nfs && decide ("nfs" = o)) := by
  simp only [List.mem_cons, List.not_mem_nil, or_false, not_or] at ho
  have hmap : ∀ (d : OptionDetails Variables) (o' : String), d.longName = o'.toList → o ≠ o' → ∀ ts : List Arg,
      isGiven (ts.map (fun t => (d, t))) o = false := fun d o' hd hne ts => by
    rw [isGiven_map, hd, decide_eq_false (fun heq => hne (String.toList_inj.1 heq).symm), Bool.false_and]
  simp only [CommandLine.settings, isGiven_append, isGiven_flagSetting, hmap acqOption "acq" rfl ho.1,
    hmap beamOption "beam" rfl ho.2.1, hmap positionalOption "positional" rfl ho.2.2, Bool.or_false]

theorem textsOf_settings (c : CommandLine) : textsOf c.settings "acq" = c.options.acq.toList ∧
    textsOf c.settings "beam" = c.options.beams.map FileUtils.toString ∧
    textsOf c.settings "positional" = c.options.args := by
  have hflag : ∀ (b : Bool) (x : Char) (o o' : String), o ≠ o' → textsOf (flagSetting b x o) o' = [] :=
    fun b x o o' h => by rw [textsOf_flagSetting, if_neg (fun hb => h hb.2)]
  refine ⟨?_, ?_, ?_⟩ <;>
  · simp only [CommandLine.settings, textsOf_append, textsOf_map]
    repeat rw [hflag _ _ _ _ (by decide)]
    simp [acqOption, beamOption, positionalOption]

theorem said_settings {c : CommandLine} (h : c.Usable) : said c.settings c.options.beams = c := by
  have hverbosity : (if c.l1Verbosity = 2 then (2 : Int) else 1) = c.l1Verbosity := by
    rcases h.verbosity with hv | hv <;> rw [hv] <;> rfl
  have hacq : c.options.acq.toList.getLast? = c.options.acq := by cases c.options.acq <;> rfl
  have hgiven : ∀ o ∉ ["acq", "beam", "positional"], isGiven c.settings o = _ := fun o ho => isGiven_settings c ho
  obtain ⟨hacqs, -, hargs⟩ := textsOf_settings c
  unfold said
  rw [hacqs, hargs, hacq, hgiven "help" (by decide), hgiven "force" (by decide), hgiven "ignore" (by decide),
    hgiven "crash" (by decide), hgiven "toy" (by decide), hgiven "nfs" (by decide), hgiven "verbose" (by decide),
    hgiven "pipe" (by decide), hgiven "memory" (by decide), hgiven "write" (by decide)]
  obtain ⟨options, l1Verbosity, l1bPipeIoDebug, memoryPoolDebug, writeChunkDebug⟩ := c
  obtain ⟨help, force, ignore, crash, toy, acq, nfs, beams, args⟩ := options
  obtain rfl : help = false := h.help
  simp [hverbosity]

/-- **Every command line can be written**, whatever the texts of its names and arguments are. -/
theorem commandLine_print {c : CommandLine} (h : c.Usable) : commandLine c.print = .ok c := by
  have hbeams : (c.options.beams.map FileUtils.toString).mapM Cxxopts.integerParser = .ok c.options.beams := by
    refine (List.mapM_map ..).trans ((Fallible.mapM_eq_pure (g := id) (fun b hb => ?_)).trans ?_)
    swap
    · rw [List.map_id]
      rfl
    exact Cxxopts.integerParser_toString (h.beams b hb).1 (h.beams b hb).2
  refine commandLine_eq_ok_iff.2 ⟨c.settings, c.options.beams, line_print c, flagsRead_settings c, ?_,
    (said_settings h).symm, h.help, h.args⟩
  rw [(textsOf_settings c).2.1, hbeams]

/-- Flags of every kind, a name and an argument with a dash, a beam. -/
theorem commandLine_print_dashes : ∃ c : CommandLine, c.options.acq = some "-x".toList ∧ c.options.beams = [-1, 255] ∧
    c.options.args = ["--".toList] ∧ commandLine c.print = .ok c :=
  ⟨⟨⟨false, true, false, false, true, some "-x".toList, true, [-1, 255], ["--".toList]⟩, 2, false, true, false⟩, rfl, rfl,
    rfl, commandLine_print ⟨rfl, .inr ⟨rfl, rfl⟩, by decide, .inr rfl⟩⟩

/-- A flag counts as given also where its text says that it is false. -/
example : ((commandLine ["--toy=false".toList, "l1.yaml".toList]).toOption.map (·.options.toy)) = some true := rfl

end Config
end FrbL1
