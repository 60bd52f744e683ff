import FrbL1.InputStream
import FrbL1.Regex
/-!
# ChLogger — the lines of the log

`ChLogToDatabase` takes a line of the log apart with a regular expression.  Its group for the function is greedy: it ends
at the last `]` that is followed by a blank, a run of characters without blanks and another blank.  That is the one
behind the function unless there is one in what follows, the date and the message (`parses_iff`).
-/
namespace FrbL1
namespace ChLogger

open InputStream (isSpace)
open Regex (Piece firstMatch firstMatch_char char_of_firstMatch group_of_firstMatch firstMatch_group firstMatch_group_cons
  firstMatch_group_end)

inductive Group
  | host
  | thread
  | level
  | filename
  | linenum
  | function
  | date
  | msg
  deriving DecidableEq

/-- `\S`. -/
def nonSpace (c : Char) : Bool := !isSpace c

/-- `\w`. -/
def wordChar (c : Char) : Bool := c.isAlphanum || c == '_'

/-- `.`. -/
def anyChar (c : Char) : Bool := c ≠ '\n'

def regex : List (Piece Group) :=
  [.group .host nonSpace, .char ' ', .group .thread nonSpace, .char ' ', .group .level wordChar, .char ' ',
    .group .filename nonSpace, .char ':', .group .linenum Char.isDigit, .char ' ', .char '[', .group .function anyChar,
    .char ']', .char ' ', .group .date nonSpace, .char ' ', .group .msg anyChar]

structure LogLine where
  host     : List Char
  thread   : List Char
  level    : List Char
  filename : List Char
  linenum  : List Char
  function : List Char
  date     : List Char
  msg      : List Char

/-- The `parts` of `handle_message`; `none` where there is no match, and `match.group` raises. -/
def parse (msg : List Char) : Option LogLine := do
  let m ← firstMatch regex msg
  return {
    host     := ← m.lookup .host
    thread   := ← m.lookup .thread
    level    := ← m.lookup .level
    filename := ← m.lookup .filename
    linenum  := ← m.lookup .linenum
    function := ← m.lookup .function
    date     := ← m.lookup .date
    msg      := ← m.lookup .msg }

namespace LogLine

/-- `host thread level filename:linenum [function] date msg`. -/
def text (l : LogLine) : List Char :=
  l.host ++ ' ' :: (l.thread ++ ' ' :: (l.level ++ ' ' :: (l.filename ++ ':' :: (l.linenum ++ ' ' :: '[' ::
    (l.function ++ ']' :: ' ' :: (l.date ++ ' ' :: l.msg))))))

/-- The date and the message look like the end of a function, a date and a message. -/
def Ambiguous (l : LogLine) : Prop :=
  ∃ function date msg, l.date ++ ' ' :: l.msg = function ++ ']' :: ' ' :: (date ++ ' ' :: msg) ∧
    ∀ c ∈ date, nonSpace c = true

end LogLine

/-- A line whose fields are as the format has them. -/
structure Logged extends LogLine where
  host_ok     : ∀ c ∈ host, nonSpace c = true
  thread_ok   : ∀ c ∈ thread, nonSpace c = true
  level_ok    : ∀ c ∈ level, wordChar c = true
  filename_ok : ∀ c ∈ filename, nonSpace c = true
  linenum_ok  : ∀ c ∈ linenum, c.isDigit = true
  function_ok : ∀ c ∈ function, anyChar c = true
  date_ok     : ∀ c ∈ date, nonSpace c = true
  msg_ok      : ∀ c ∈ msg, anyChar c = true

/-! ## From the end of the line -/

/-- The expression behind the group for the function, and before it. -/
abbrev behindFunction : List (Piece Group) :=
  [.char ']', .char ' ', .group .date nonSpace, .char ' ', .group .msg anyChar]

abbrev fromLinenum : List (Piece Group) :=
  .char ':' :: .group .linenum Char.isDigit :: .char ' ' :: .char '[' :: .group .function anyChar :: behindFunction

theorem firstMatch_behindFunction {date msg : List Char} (hdate : ∀ c ∈ date, nonSpace c = true)
    (hmsg : ∀ c ∈ msg, anyChar c = true) :
    firstMatch behindFunction (']' :: ' ' :: (date ++ ' ' :: msg)) = some [(.date, date), (.msg, msg)] := by
  rw [firstMatch_char, firstMatch_char]
  refine firstMatch_group_cons hdate rfl ?_
  rw [firstMatch_char]
  exact firstMatch_group_end hmsg rfl

theorem of_behindFunction {s : List Char} {m : List (Group × List Char)} (h : firstMatch behindFunction s = some m) :
    ∃ date msg, s = ']' :: ' ' :: (date ++ ' ' :: msg) ∧ ∀ c ∈ date, nonSpace c = true := by
  obtain ⟨s₁, rfl, h₁⟩ := char_of_firstMatch h
  obtain ⟨s₂, rfl, h₂⟩ := char_of_firstMatch h₁
  obtain ⟨date, s₃, m', rfl, hdate, h₃, -⟩ := group_of_firstMatch h₂
  obtain ⟨msg, rfl, -⟩ := char_of_firstMatch h₃
  exact ⟨date, msg, rfl, hdate⟩

/-- The last `:` before the line number is the one behind the file name. -/
theorem not_later_colon {linenum s u r : List Char} (hlinenum : ∀ c ∈ linenum, c.isDigit = true)
    (hu : ∀ c ∈ u, nonSpace c = true) : linenum ++ ' ' :: s ≠ u ++ ':' :: r := by
  intro h
  rcases List.append_eq_append_iff.1 h with ⟨v, rfl, hv⟩ | ⟨v, rfl, hv⟩
  · cases v with
    | nil => cases hv
    | cons c v =>
      obtain rfl := (List.cons.inj hv).1
      have hspace := hu ' ' (List.mem_append_right _ (.head _))
      exact absurd hspace (by decide)
  · cases v with
    | nil => cases hv
    | cons c v =>
      obtain rfl := (List.cons.inj hv).1
      have hdigit := hlinenum ':' (List.mem_append_right _ (.head _))
      exact absurd hdigit (by decide)

theorem firstMatch_regex (l : Logged) {s : List Char} {m : List (Group × List Char)}
    (h : firstMatch (.group .function anyChar :: behindFunction) s = some m) :
    firstMatch regex (l.host ++ ' ' :: (l.thread ++ ' ' :: (l.level ++ ' ' :: (l.filename ++ ':' :: (l.linenum ++ ' ' :: '[' ::
      s))))) = some ((.host, l.host) :: (.thread, l.thread) :: (.level, l.level) :: (.filename, l.filename) ::
        (.linenum, l.linenum) :: m) := by
  have hlinenum : firstMatch fromLinenum (':' :: (l.linenum ++ ' ' :: '[' :: s)) = some ((.linenum, l.linenum) :: m) := by
    rw [firstMatch_char]
    refine firstMatch_group_cons l.linenum_ok rfl ?_
    rw [firstMatch_char, firstMatch_char]
    exact h
  have hfilename : firstMatch (.group .filename nonSpace :: fromLinenum)
      (l.filename ++ ':' :: (l.linenum ++ ' ' :: '[' :: s)) =
        some ((.filename, l.filename) :: (.linenum, l.linenum) :: m) := by
    obtain ⟨u, r, m', hr, hu, hm', hmatch⟩ := firstMatch_group .filename l.filename_ok hlinenum
    obtain ⟨r, rfl, -⟩ := char_of_firstMatch hm'
    cases u with
    | nil =>
      rw [List.nil_append] at hr
      rw [← hr, hlinenum] at hm'
      rw [hmatch, List.append_nil, ← Option.some.inj hm']
    | cons c u =>
      exact absurd (List.cons.inj hr).2 (not_later_colon l.linenum_ok (fun c hc => hu c (.tail _ hc)))
  refine firstMatch_group_cons l.host_ok rfl ?_
  rw [firstMatch_char]
  refine firstMatch_group_cons l.thread_ok rfl ?_
  rw [firstMatch_char]
  refine firstMatch_group_cons l.level_ok rfl ?_
  rw [firstMatch_char]
  exact hfilename

/-! ## The function -/

/-- **The group ends behind the function** if there is no other place for it to end. -/
theorem firstMatch_function (l : Logged) (h : ¬ l.Ambiguous) :
    firstMatch (.group .function anyChar :: behindFunction) (l.function ++ ']' :: ' ' :: (l.date ++ ' ' :: l.msg)) =
      some [(.function, l.function), (.date, l.date), (.msg, l.msg)] := by
  have hrest := firstMatch_behindFunction l.date_ok l.msg_ok
  obtain ⟨u, r, m', hr, -, hm', hmatch⟩ := firstMatch_group .function l.function_ok hrest
  obtain ⟨date, msg, rfl, hdate⟩ := of_behindFunction hm'
  rcases u with _ | ⟨c, _ | ⟨d, u⟩⟩
  · rw [List.nil_append] at hr
    rw [← hr, hrest] at hm'
    rw [hmatch, List.append_nil, ← Option.some.inj hm']
  · cases (List.cons.inj (List.cons.inj hr).2).1
  · exact absurd ⟨u, date, msg, (List.cons.inj (List.cons.inj hr).2).2, hdate⟩ h

theorem anyChar_of_nonSpace {c : Char} (h : nonSpace c = true) : anyChar c = true := by
  refine decide_eq_true (fun heq => ?_)
  subst heq
  exact absurd h (by decide)

/-- **It ends later**, if there is another place. -/
theorem firstMatch_function_later (l : Logged) (h : l.Ambiguous) : ∃ function m,
    firstMatch (.group .function anyChar :: behindFunction) (l.function ++ ']' :: ' ' :: (l.date ++ ' ' :: l.msg)) =
      some ((.function, function) :: m) ∧ function ≠ l.function := by
  obtain ⟨function, date, msg, heq, hdate⟩ := h
  have hany : ∀ c ∈ l.date ++ ' ' :: l.msg, anyChar c = true :=
    List.forall_mem_append.2 ⟨fun c hc => anyChar_of_nonSpace (l.date_ok c hc), List.forall_mem_cons.2 ⟨rfl, l.msg_ok⟩⟩
  rw [heq, List.forall_mem_append, List.forall_mem_cons, List.forall_mem_cons, List.forall_mem_append,
    List.forall_mem_cons] at hany
  obtain ⟨hfunction, -, -, -, -, hmsg⟩ := hany
  have htaken : ∀ c ∈ l.function ++ ']' :: ' ' :: function, anyChar c = true :=
    List.forall_mem_append.2 ⟨l.function_ok, List.forall_mem_cons.2 ⟨rfl, List.forall_mem_cons.2 ⟨rfl, hfunction⟩⟩⟩
  obtain ⟨u, r, m', -, -, -, hmatch⟩ := firstMatch_group .function htaken (firstMatch_behindFunction hdate hmsg)
  refine ⟨l.function ++ ']' :: ' ' :: function ++ u, m', ?_, fun hfun => ?_⟩
  · have htext : l.function ++ ']' :: ' ' :: (function ++ ']' :: ' ' :: (date ++ ' ' :: msg)) =
        l.function ++ ']' :: ' ' :: function ++ ']' :: ' ' :: (date ++ ' ' :: msg) := by
      rw [List.append_assoc, List.cons_append, List.cons_append]
    rw [heq, htext]
    exact hmatch
  · have hlen := congrArg List.length hfun
    simp only [List.length_append, List.length_cons] at hlen
    omega

/-! ## The fields -/

theorem parse_of_firstMatch {s : List Char} {host thread level filename linenum function date msg : List Char}
    (h : firstMatch regex s = some [(.host, host), (.thread, thread), (.level, level), (.filename, filename),
      (.linenum, linenum), (.function, function), (.date, date), (.msg, msg)]) :
    parse s = some ⟨host, thread, level, filename, linenum, function, date, msg⟩ := by
  unfold parse
  rw [h]
  rfl

theorem lookup_of_parse {s : List Char} {m : List (Group × List Char)} {l : LogLine} (hm : firstMatch regex s = some m)
    (h : parse s = some l) : m.lookup .function = some l.function := by
  unfold parse at h
  rw [hm] at h
  simp only [Option.bind_eq_bind, Option.bind_some, Option.bind_eq_some_iff] at h
  obtain ⟨_, -, _, -, _, -, _, -, _, -, function, hfunction, _, -, _, -, hl⟩ := h
  obtain rfl := Option.some.inj hl
  exact hfunction

theorem parse_of_not_ambiguous (l : Logged) (h : ¬ l.Ambiguous) : parse l.text = some l.toLogLine :=
  parse_of_firstMatch (firstMatch_regex l (firstMatch_function l h))

theorem parse_ne_of_ambiguous (l : Logged) (hamb : l.Ambiguous) : parse l.text ≠ some l.toLogLine := by
  intro h
  obtain ⟨function, m, hmatch, hne⟩ := firstMatch_function_later l hamb
  exact hne (Option.some.inj (lookup_of_parse (firstMatch_regex l hmatch) h))

/-- **A line is taken apart into its fields** if and only if its date and message are not ambiguous. -/
theorem parses_iff (l : Logged) : parse l.text = some l.toLogLine ↔ ¬ l.Ambiguous :=
  ⟨fun h hamb => parse_ne_of_ambiguous l hamb h, parse_of_not_ambiguous l⟩

def wrote : Logged where
  host        := "slinky.local".toList
  thread      := "L1-RPC-server".toList
  level       := "INFO".toList
  filename    := "l1-rpc.cpp".toList
  linenum     := "412".toList
  function    := "int f()".toList
  date        := "2018-01-09-20:44:27.827".toList
  msg         := "beams [1, 2] were written".toList
  host_ok     := List.all_eq_true.1 (by decide)
  thread_ok   := List.all_eq_true.1 (by decide)
  level_ok    := List.all_eq_true.1 (by decide)
  filename_ok := List.all_eq_true.1 (by decide)
  linenum_ok  := List.all_eq_true.1 (by decide)
  function_ok := List.all_eq_true.1 (by decide)
  date_ok     := List.all_eq_true.1 (by decide)
  msg_ok      := List.all_eq_true.1 (by decide)

/-- **Brackets and two words**: the function ends in the message. -/
theorem not_parses_wrote : ¬ ∀ l : Logged, parse l.text = some l.toLogLine := by
  intro h
  refine parse_ne_of_ambiguous wrote ⟨"2018-01-09-20:44:27.827 beams [1, 2".toList, "were".toList, "written".toList, ?_, ?_⟩ (h wrote)
  · decide
  · exact List.all_eq_true.1 (by decide)

end ChLogger
end FrbL1
