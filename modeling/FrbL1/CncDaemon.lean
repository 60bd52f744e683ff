import FrbL1.CncReaping
import FrbL1.Run
/-!
# CncDaemon — the requests of the cnc daemon, and the output of its captive processes

A captive process writes to two pipes.  A thread for each reads it line by line and puts the lines into a queue
(`enqueue_output`); a `read_proc` request takes the lines that are queued by then, in two loops, first those of its
reply's second component, then those of its third.  All may happen at any time: an action is what a process writes, or
one operation of one thread on a pipe or on a queue.  Both loops take from `qout`.
-/
namespace FrbL1
namespace Cnc

inductive Python
  | py2
  | py3
  deriving DecidableEq

/-- A byte is a character. -/
abbrev Bytes := List Char

inductive Which
  | out
  | err
  deriving DecidableEq

/-! ## The pipes, their threads and queues -/

/-- One of the pipes of a captive process.  `written` is all that the process has written to it, and `pipe` what has not
been read of it; `held` is a line that the thread has read and has not put into `queue`. -/
structure Stream where
  written : Bytes
  closed  : Bool
  pipe    : Bytes
  held    : Option Bytes
  ended   : Bool
  queue   : List Bytes
  deriving DecidableEq

inductive StreamAction
  | write (b : Bytes)
  | close
  | readline
  | put
  deriving DecidableEq

/-- `out.readline()`, and what it leaves; `none` while it blocks. -/
def readline (pipe : Bytes) (closed : Bool) : Option (Bytes × Bytes) :=
  match pipe.dropWhile (· ≠ '\n') with
  | c :: rest => some (pipe.takeWhile (· ≠ '\n') ++ [c], rest)
  | []        => if closed then some (pipe, []) else none

namespace Stream

def new : Stream := ⟨[], false, [], none, false, []⟩

/-- The process (`write`, `close`), and the thread: `for line in iter(out.readline, b''): queue.put(line)`. -/
def step (s : Stream) : StreamAction → Option Stream
  | .write b  => if s.closed then none else some { s with written := s.written ++ b, pipe := s.pipe ++ b }
  | .close    => if s.closed then none else some { s with closed := true }
  | .readline =>
    match s.ended, s.held with
    | false, none => (readline s.pipe s.closed).map fun (line, pipe) =>
      if line = [] then { s with ended := true } else { s with held := some line, pipe := pipe }
    | _, _ => none
  | .put      => s.held.map fun line => { s with held := none, queue := s.queue ++ [line] }

def queued (s : Stream) : Bytes := s.queue.flatten

/-- What the thread has not put into the queue yet. -/
def unqueued (s : Stream) : Bytes := s.held.getD [] ++ s.pipe

end Stream

/-! ## The daemon -/

inductive Reply
  /-- `(returncode, stdout, stderr)`. -/
  | output (returncode : Option Int) (stdout stderr : Bytes)
  /-- `(0, pid, '')`. -/
  | started (pid : Int)
  /-- `(None, None, None)`. -/
  | notCaptive
  /-- `None`. -/
  | ignored

def notUnderstood : Reply := .output (some (-1000)) [] "did not understand request".toList

/-- The second and the third component of a reply to `read_proc`. -/
def Reply.component : Reply → Which → Bytes
  | .output _ out _, .out => out
  | .output _ _ err, .err => err
  | _, _                  => []

/-- A request, with what `subprocess` makes of it: `none` where it raises. -/
inductive Request
  | run (ended : Option (Int × Bytes × Bytes))
  | launch (captive : Bool) (pid : Option Int)
  | readProc (pid : Int) (returncode : Option Int)
  | kill (pid : Int)
  | quit
  | unknown
  /-- No msgpack. -/
  | garbage

/-- Where the main thread is: in its poll, or in one of the loops of a `read_proc`, with what it has taken so far. -/
inductive Pc
  | listening
  | drainOut (i : Nat) (out : List Bytes)
  | drainErr (i : Nat) (out : Bytes) (err : List Bytes)
  | stopped
  deriving DecidableEq

/-- Captive processes are numbered as they are launched.  `captiveProcs` is the dictionary by their pids, the last
assignment first, and `sent` are the replies, each with the captive process that it is about, if any. -/
structure State where
  launched     : Launched
  ncaptives    : Nat
  stream       : Nat → Which → Stream
  returncode   : Nat → Option Int
  captiveProcs : List (Int × Nat)
  pc           : Pc
  sent         : List (Option Nat × Reply)

inductive Action
  | stream (i : Nat) (which : Which) (a : StreamAction)
  | timeout (terminated : Nat → Bool)
  | receive (r : Request)
  | getNowait

/-- `''.join(lines)`, of lines that are bytes: in Python 3 it raises, unless there are none. -/
def join : Python → List Bytes → Option Bytes
  | .py3, _ :: _ => none
  | _, lines     => some lines.flatten

namespace State

def init : State := ⟨.init, 0, fun _ _ => .new, fun _ => none, [], .listening, []⟩

def setStream (s : State) (i : Nat) (which : Which) (t : Stream) : State :=
  { s with stream := fun j w => if j = i ∧ w = which then t else s.stream j w }

/-- `p.poll()`: once known, the return code stays. -/
def poll (s : State) (i : Nat) (returncode : Option Int) : State :=
  { s with returncode := fun j => if j = i then s.returncode j <|> returncode else s.returncode j }

def reply (s : State) (about : Option Nat) (r : Reply) : State :=
  { s with pc := .listening, sent := s.sent ++ [(about, r)] }

/-- A request, as far as no queue is needed. -/
def receive (s : State) : Request → State
  | .run (some (returncode, out, err)) => s.reply none (.output (some returncode) out err)
  | .launch false (some pid) => { s with launched := s.launched.append }.reply none (.started pid)
  | .launch true (some pid) =>
    { s with ncaptives := s.ncaptives + 1, captiveProcs := (pid, s.ncaptives) :: s.captiveProcs }.reply none (.started pid)
  | .readProc pid returncode =>
    match s.captiveProcs.lookup pid with
    | none   => s.reply none .notCaptive
    | some i => { s.poll i returncode with pc := .drainOut i [] }
  | .kill pid =>
    match s.captiveProcs.lookup pid with
    | none   => s.reply none .ignored
    -- `captive_procs[pid]` is a tuple, which has no `terminate`.
    | some _ => s.reply none notUnderstood
  | .quit | .garbage => { s with pc := .stopped }
  | .run none | .launch _ none | .unknown => s.reply none notUnderstood

/-- One `qout.get_nowait()` of the first loop. -/
def drainOut (s : State) (py : Python) (i : Nat) (out : List Bytes) : State :=
  match (s.stream i .out).queue with
  | line :: queue => { s.setStream i .out { s.stream i .out with queue := queue } with pc := .drainOut i (out ++ [line]) }
  | [] =>
    match join py out with
    | some out => { s with pc := .drainErr i out [] }
    | none     => s.reply (some i) notUnderstood

/-- One `qout.get_nowait()` of the second loop. -/
def drainErr (s : State) (py : Python) (i : Nat) (out : Bytes) (err : List Bytes) : State :=
  match (s.stream i .out).queue with
  | line :: queue => { s.setStream i .out { s.stream i .out with queue := queue } with pc := .drainErr i out (err ++ [line]) }
  | [] =>
    match join py err with
    | some err => s.reply (some i) (.output (s.returncode i) out err)
    | none     => s.reply (some i) notUnderstood

end State

def step (py : Python) (s : State) : Action → Option State
  | .stream i which a =>
    if i < s.ncaptives then ((s.stream i which).step a).map (s.setStream i which) else none
  | .timeout terminated =>
    match s.pc with
    | .listening => some { s with launched := s.launched.idlePass terminated }
    | _          => none
  | .receive r =>
    match s.pc with
    | .listening => some (s.receive r)
    | _          => none
  | .getNowait =>
    match s.pc with
    | .drainOut i out     => some (s.drainOut py i out)
    | .drainErr i out err => some (s.drainErr py i out err)
    | _                   => none

/-! ## What the threads do -/

theorem readline_eq {pipe line rest : Bytes} {closed : Bool} (h : readline pipe closed = some (line, rest)) :
    line ++ rest = pipe ∧ (line = [] → rest = []) := by
  have hsplit : pipe.takeWhile (· ≠ '\n') ++ pipe.dropWhile (· ≠ '\n') = pipe := List.takeWhile_append_dropWhile
  unfold readline at h
  split at h
  · rename_i c rest' hdrop
    obtain ⟨rfl, rfl⟩ := Prod.mk.inj (Option.some.inj h)
    rw [List.append_assoc, List.singleton_append, ← hdrop]
    exact ⟨hsplit, fun hnil => by simp at hnil⟩
  · split at h
    · obtain ⟨rfl, rfl⟩ := Prod.mk.inj (Option.some.inj h)
      exact ⟨List.append_nil _, fun _ => rfl⟩
    · cases h

namespace Stream

structure Lines (s : Stream) : Prop where
  held  : s.held ≠ some []
  queue : [] ∉ s.queue

theorem lines_new : Lines new := ⟨fun h => (nomatch h), List.not_mem_nil⟩

variable {s t : Stream} {a : StreamAction}

theorem step_readline (h : s.step .readline = some t) : s.held = none ∧ ∃ line rest,
    line ++ rest = s.pipe ∧ (line = [] ∧ rest = [] ∧ t = { s with ended := true } ∨
      line ≠ [] ∧ t = { s with held := some line, pipe := rest }) := by
  simp only [step] at h
  split at h
  · rename_i hended hheld
    obtain ⟨⟨line, rest⟩, hread, rfl⟩ := Option.map_eq_some_iff.1 h
    obtain ⟨hpipe, hnil⟩ := readline_eq hread
    refine ⟨hheld, line, rest, hpipe, ?_⟩
    by_cases hline : line = []
    · exact .inl ⟨hline, hnil hline, if_pos hline⟩
    · exact .inr ⟨hline, if_neg hline⟩
  · cases h

theorem step_put (h : s.step .put = some t) :
    ∃ line, s.held = some line ∧ t = { s with held := none, queue := s.queue ++ [line] } := by
  obtain ⟨line, hheld, rfl⟩ := Option.map_eq_some_iff.1 h
  exact ⟨line, hheld, rfl⟩

theorem step_moves (h : s.step a = some t) :
    ∃ b, t.written = s.written ++ b ∧ t.queued ++ t.unqueued = s.queued ++ s.unqueued ++ b := by
  cases a with
  | write b =>
    simp only [step] at h
    split at h
    · cases h
    · obtain rfl := Option.some.inj h
      exact ⟨b, rfl, by simp only [queued, unqueued, List.append_assoc]⟩
  | close =>
    simp only [step] at h
    split at h
    · cases h
    · obtain rfl := Option.some.inj h
      exact ⟨[], (List.append_nil _).symm, (List.append_nil _).symm⟩
  | readline =>
    obtain ⟨hheld, line, rest, hpipe, ⟨rfl, rfl, rfl⟩ | ⟨-, rfl⟩⟩ := step_readline h
    · exact ⟨[], (List.append_nil _).symm, (List.append_nil _).symm⟩
    · refine ⟨[], (List.append_nil _).symm, ?_⟩
      simp only [queued, unqueued, hheld, ← hpipe, Option.getD_some, Option.getD_none, List.nil_append, List.append_nil]
  | put =>
    obtain ⟨line, hheld, rfl⟩ := step_put h
    refine ⟨[], (List.append_nil _).symm, ?_⟩
    simp only [queued, unqueued, hheld, Option.getD_some, Option.getD_none, List.nil_append, List.append_nil,
      List.flatten_append, List.flatten_singleton, List.append_assoc]

theorem step_lines (hs : s.Lines) (h : s.step a = some t) : t.Lines := by
  cases a with
  | write b =>
    simp only [step] at h
    split at h
    · cases h
    · obtain rfl := Option.some.inj h
      exact ⟨hs.held, hs.queue⟩
  | close =>
    simp only [step] at h
    split at h
    · cases h
    · obtain rfl := Option.some.inj h
      exact ⟨hs.held, hs.queue⟩
  | readline =>
    obtain ⟨-, line, rest, -, ⟨-, -, rfl⟩ | ⟨hline, rfl⟩⟩ := step_readline h
    · exact ⟨hs.held, hs.queue⟩
    · exact ⟨fun heq => hline (Option.some.inj heq), hs.queue⟩
  | put =>
    obtain ⟨line, hheld, rfl⟩ := step_put h
    refine ⟨fun heq => (nomatch heq), fun hmem => ?_⟩
    rcases List.mem_append.1 hmem with hmem | hmem
    · exact hs.queue hmem
    · exact hs.held (List.mem_singleton.1 hmem ▸ hheld)

end Stream
end Cnc
end FrbL1
