import Mathlib.Tactic.Linarith
import Mathlib.Tactic.Ring
import FrbL1.RpcClientCalls
/-!
# RpcClientTimeouts — what the waits of the client do with their timeouts

The client's own steps, with a clock.  Between any two of them any time may pass; a poll blocks for no longer than its
timeout.  Timeouts are milliseconds and `time.time()` is seconds, and the second is subtracted from the first:
a timeout falls by a thousandth of the time that has passed, and so it is within what is left of the budget only if no
time has passed at all, or a thousand times the budget has (`budgets_kept_iff`).
-/
namespace FrbL1
namespace Client

open Trans

variable {Server Parts : Type}

/-! ## The clock -/

/-- A call of `_receive`.  `measured` is how much of the time since the entry lies between two readings of the clock
whose difference has been subtracted, and `polled` is how long its blocking poll takes. -/
structure Receive where
  timeout  : ℚ
  elapsed  : ℚ
  measured : ℚ
  polled   : ℚ
  deriving DecidableEq

/-- A call that waits with a timeout: what it was called with, when, its `t0` (in milliseconds, as the clock of this
model), and its calls of `_receive`, the last one first. -/
structure Meter where
  budget   : ℚ
  entry    : ℚ
  t0       : ℚ
  receives : List Receive
  deriving DecidableEq

/-- What `time.time()` makes of a time. -/
def seconds (ms : ℚ) : ℚ := ms / 1000

def pollTime : List Receive → ℚ
  | []      => 0
  | r :: rs => r.polled + pollTime rs

namespace Meter

def start (budget now : ℚ) : Meter := ⟨budget, now, now, []⟩

def measured (m : Meter) : ℚ := m.t0 - m.entry

def left (m : Meter) : ℚ := adjust m.budget (seconds m.measured)

def spent (m : Meter) : ℚ := pollTime m.receives

def receive (m : Meter) (timeout measured now : ℚ) : Meter :=
  { m with receives := ⟨timeout, now - m.entry, measured, 0⟩ :: m.receives }

def blocked (m : Meter) : ℚ :=
  match m.receives with
  | []     => 0
  | r :: _ => r.polled

def block (m : Meter) (d : ℚ) : Meter :=
  match m.receives with
  | []      => m
  | r :: rs => { m with receives := { r with polled := r.polled + d } :: rs }

end Meter

/-- The client with a clock; `wait` is the last call of `wait_for_tokens`, `all` the last of `wait_for_all_writes`. -/
structure Timed (Server Parts : Type) where
  client : State Server Parts
  now    : ℚ
  wait   : Meter
  all    : Meter

def Timed.init (now : ℚ) : Timed Server Parts := ⟨State.init, now, .start 0 now, .start 0 now⟩

inductive TimedAction (Server Parts : Type)
  | elapse (dt : ℚ)
  | act (a : Action Server Parts)
  | block (d : ℚ)

/-- The calls that a call of `wait_for_tokens` is part of. -/
def Caller.inAllWrites : Caller Server Parts → Bool
  | .allWrites _ _ => true
  | _              => false

namespace Timed

/-- The differences of clock readings are what they are. -/
def reads (s : Timed Server Parts) : Action Server Parts → Bool
  | .adjustTimeout dt => dt = seconds s.now - seconds s.wait.t0
  | .waitReturns dt   => dt = seconds s.now - seconds s.all.t0
  | _                 => true

def begins (s : Timed Server Parts) (c : State Server Parts) : Timed Server Parts :=
  match c.pc with
  | .waiting w _ => { s with client := c, wait := .start w.timeout s.now }
  | _            => { s with client := c }

/-- `_receive` is called, if it is. -/
def popped (s : Timed Server Parts) (c : State Server Parts) : Timed Server Parts :=
  match c.pc with
  | .waiting ⟨_, timeout, _, _, .polling _⟩ k =>
    { client := c
      now    := s.now
      wait   := s.wait.receive timeout s.wait.measured s.now
      all    := if k.inAllWrites then s.all.receive timeout (s.all.measured + s.wait.measured) s.now else s.all }
  | _ => { s with client := c }

/-- `wait_for_all_writes` reads the clock after each of its waits; `write_chunks` may go on to call it. -/
def returns (s : Timed Server Parts) (c : State Server Parts) : Timed Server Parts :=
  match s.client.pc, c.pc with
  | .waiting _ (.allWrites _ _), _ => { s with client := c, all := { s.all with t0 := s.now } }
  | _, .allWrites a                => { s with client := c, all := .start a.timeout s.now }
  | _, _                           => { s with client := c }

/-- The meters after an action that leads to `c`. -/
def after (s : Timed Server Parts) (c : State Server Parts) : Action Server Parts → Timed Server Parts
  | .request _ _ _ _ | .waitForTokens _ _ | .nextReply => s.begins c
  | .waitForAllWrites _ _ timeout => { s with client := c, all := .start timeout s.now }
  | .popped          => s.popped c
  | .adjustTimeout _ => { s with client := c, wait := { s.wait with t0 := s.now } }
  | .waitReturns _   => s.returns c
  | _                => { s with client := c }

end Timed

section
variable [DecidableEq Server] (chunkListLen : Parts → Option Nat) (unpacksReply : Parts → Bool)

def timedStep (s : Timed Server Parts) : TimedAction Server Parts → Option (Timed Server Parts)
  | .elapse dt => if 0 ≤ dt then some { s with now := s.now + dt } else none
  | .act a     => if s.reads a then (step chunkListLen unpacksReply s.client a).map (s.after · a) else none
  | .block d   =>
    match s.client.pc with
    | .waiting ⟨_, timeout, _, _, .blocking⟩ k =>
      if 0 ≤ d ∧ (0 ≤ timeout → s.wait.blocked + d ≤ timeout) then
        some { s with
          now  := s.now + d
          wait := s.wait.block d
          all  := if k.inAllWrites then s.all.block d else s.all }
      else none
    | _ => none

end

/-! ## The budget -/

namespace Meter

/-- The timeout of `_receive`, after `elapsed` milliseconds. -/
def Within (m : Meter) (elapsed : Receive → ℚ) : Prop :=
  ∀ r ∈ m.receives, 0 ≤ r.timeout ∧ r.timeout ≤ max 0 (m.budget - elapsed r)

/-- **The budget is kept**: so far. -/
structure Kept (m : Meter) : Prop where
  within : m.Within (·.elapsed)
  spent  : m.spent ≤ m.budget

/-- Either no time has passed, or as many seconds have been measured as there are milliseconds. -/
def InTime (m : Meter) (elapsed : Receive → ℚ) : Prop :=
  ∀ r ∈ m.receives, elapsed r = 0 ∨ m.budget ≤ seconds r.measured

end Meter

/-! ## What is measured -/

theorem seconds_nonneg {ms : ℚ} (h : 0 ≤ ms) : 0 ≤ seconds ms := div_nonneg h (by norm_num)

theorem seconds_add (x y : ℚ) : seconds (x + y) = seconds x + seconds y := add_div x y 1000

theorem seconds_sub (x y : ℚ) : seconds (x - y) = seconds x - seconds y := sub_div x y 1000

theorem adjust_of_pos {timeout : ℚ} (h : 0 < timeout) (dt : ℚ) : adjust timeout dt = max 0 (timeout - dt) := if_pos h

theorem adjust_of_nonpos {timeout : ℚ} (h : timeout ≤ 0) (dt : ℚ) : adjust timeout dt = timeout :=
  if_neg (not_lt.2 h)

theorem adjust_adjust (timeout x : ℚ) {y : ℚ} (hy : 0 ≤ y) : adjust (adjust timeout x) y = adjust timeout (x + y) := by
  rcases lt_or_ge 0 timeout with h | h
  · rw [adjust_of_pos h, adjust_of_pos h]
    rcases lt_or_ge 0 (timeout - x) with hx | hx
    · rw [max_eq_right hx.le, adjust_of_pos hx, sub_sub]
    · have hxy : timeout - (x + y) ≤ 0 := by linarith
      rw [max_eq_left hx, max_eq_left hxy, adjust_of_nonpos le_rfl]
  · rw [adjust_of_nonpos h, adjust_of_nonpos h, adjust_of_nonpos h]

/-- A call of `_receive` of a waiting call with a budget. -/
structure Receive.Ok (budget : ℚ) (r : Receive) : Prop where
  timeout  : r.timeout = adjust budget (seconds r.measured)
  measured : 0 ≤ r.measured ∧ r.measured ≤ r.elapsed
  polled   : 0 ≤ r.timeout → r.polled ≤ r.timeout

def Paced : List Receive → Prop
  | []      => True
  | r :: rs => pollTime rs ≤ r.elapsed ∧ Paced rs

structure Meter.Ok (m : Meter) (now : ℚ) : Prop where
  entry    : m.entry ≤ m.t0
  t0       : m.t0 ≤ now
  spent    : m.spent ≤ now - m.entry
  receives : ∀ r ∈ m.receives, r.Ok m.budget
  paced    : Paced m.receives

namespace Meter

theorem ok_start (budget now : ℚ) : (start budget now).Ok now where
  entry    := le_rfl
  t0       := le_rfl
  spent    := by simp [spent, pollTime, start]
  receives := fun _ h => nomatch h
  paced    := trivial

variable {m : Meter} {now : ℚ}

theorem Ok.later (h : m.Ok now) {now' : ℚ} (hle : now ≤ now') : m.Ok now' where
  entry    := h.entry
  t0       := h.t0.trans hle
  spent    := h.spent.trans (sub_le_sub_right hle m.entry)
  receives := h.receives
  paced    := h.paced

theorem Ok.measured_nonneg (h : m.Ok now) : 0 ≤ m.measured := sub_nonneg.2 h.entry

theorem Ok.read (h : m.Ok now) : ({ m with t0 := now } : Meter).Ok now where
  entry    := h.entry.trans h.t0
  t0       := le_rfl
  spent    := h.spent
  receives := h.receives
  paced    := h.paced

theorem Ok.receive (h : m.Ok now) {timeout measured : ℚ} (ht : timeout = adjust m.budget (seconds measured))
    (h0 : 0 ≤ measured) (hle : measured ≤ now - m.entry) : (m.receive timeout measured now).Ok now where
  entry    := h.entry
  t0       := h.t0
  spent    := (zero_add m.spent).trans_le h.spent
  receives := List.forall_mem_cons.2 ⟨⟨ht, ⟨h0, hle⟩, id⟩, h.receives⟩
  paced    := ⟨h.spent, h.paced⟩

theorem left_start (budget now : ℚ) : (start budget now).left = budget := by
  unfold left measured start adjust seconds
  split
  · rename_i h
    simp [h.le]
  · rfl

theorem left_read (h : m.Ok now) :
    adjust m.left (seconds now - seconds m.t0) = ({ m with t0 := now } : Meter).left := by
  have hsum : m.measured + (now - m.t0) = now - m.entry := by
    unfold measured
    ring
  rw [← seconds_sub, left, adjust_adjust _ _ (seconds_nonneg (sub_nonneg.2 h.t0)), ← seconds_add, hsum]
  rfl

@[simp] theorem budget_block (m : Meter) (d : ℚ) : (m.block d).budget = m.budget := by
  unfold block
  split <;> rfl

@[simp] theorem entry_block (m : Meter) (d : ℚ) : (m.block d).entry = m.entry := by
  unfold block
  split <;> rfl

@[simp] theorem t0_block (m : Meter) (d : ℚ) : (m.block d).t0 = m.t0 := by
  unfold block
  split <;> rfl

theorem left_block (m : Meter) (d : ℚ) : (m.block d).left = m.left := by
  simp only [left, measured, budget_block, entry_block, t0_block]

/-- The last call of `_receive`, which was given this timeout and has blocked for so long. -/
def Waits (m : Meter) (timeout blocked : ℚ) : Prop :=
  ∃ r rs, m.receives = r :: rs ∧ r.timeout = timeout ∧ r.polled = blocked

theorem Waits.block {timeout blocked : ℚ} (h : m.Waits timeout blocked) (d : ℚ) :
    (m.block d).Waits timeout (blocked + d) := by
  obtain ⟨r, rs, hr, rfl, rfl⟩ := h
  refine ⟨{ r with polled := r.polled + d }, rs, ?_, rfl, rfl⟩
  unfold Meter.block
  rw [hr]

theorem Waits.blocked_eq {timeout blocked : ℚ} (h : m.Waits timeout blocked) : m.blocked = blocked := by
  obtain ⟨r, rs, hr, -, rfl⟩ := h
  unfold Meter.blocked
  rw [hr]

theorem Ok.block (h : m.Ok now) {timeout blocked d : ℚ} (hw : m.Waits timeout blocked) (h0 : 0 ≤ d)
    (hd : 0 ≤ timeout → blocked + d ≤ timeout) : (m.block d).Ok (now + d) := by
  obtain ⟨r, rs, hr, rfl, rfl⟩ := hw
  have hm : m.block d = { m with receives := { r with polled := r.polled + d } :: rs } := by
    unfold Meter.block
    rw [hr]
  have hspent := h.spent
  have hreceives := h.receives
  have hpaced := h.paced
  rw [hr] at hreceives hpaced
  rw [hm]
  obtain ⟨hhead, htail⟩ := List.forall_mem_cons.1 hreceives
  have hnew : Receive.Ok m.budget { r with polled := r.polled + d } := ⟨hhead.timeout, hhead.measured, hd⟩
  refine ⟨h.entry, h.t0.trans (le_add_of_nonneg_right h0), ?_, List.forall_mem_cons.2 ⟨hnew, htail⟩, hpaced⟩
  unfold Meter.spent at hspent ⊢
  rw [hr] at hspent
  simp only [pollTime] at hspent ⊢
  linarith

end Meter

/-! ## The waits -/

/-- Between the call of `_receive` and the end of its blocking poll. -/
def WaitPc.beforeBlocking : WaitPc Server → Bool
  | .polling _ | .reading _ true | .blocking => true
  | _                                        => false

theorem beforeBlocking_reading (events : List Server) (nonblocking : Bool) :
    (WaitPc.reading events nonblocking).beforeBlocking = nonblocking := by
  cases nonblocking <;> rfl

def Pc.Timed (wait all : Meter) : Pc Server Parts → Prop
  | .idle          => True
  | .waiting w k   =>
    w.timeout = wait.left ∧ (w.pc.beforeBlocking = true → wait.Waits w.timeout wait.blocked) ∧
      match k with
      | .allWrites a _ =>
        a.timeout = all.left ∧ wait.budget = a.timeout ∧ all.t0 ≤ wait.entry ∧
          (w.pc.beforeBlocking = true → all.Waits w.timeout wait.blocked)
      | _              => True
  | .allWrites a   => a.timeout = all.left
  | .segment a _   => a.timeout = all.left

structure Timed.Inv (s : Timed Server Parts) : Prop where
  wait : s.wait.Ok s.now
  all  : s.all.Ok s.now
  pc   : s.client.pc.Timed s.wait s.all

theorem inv_timedInit (now : ℚ) : (Timed.init now : Timed Server Parts).Inv :=
  ⟨Meter.ok_start 0 now, Meter.ok_start 0 now, trivial⟩

def SamePc (pc pc' : Pc Server Parts) : Prop :=
  pc' = pc ∨ pc' = .idle ∨ ∃ w w' k, pc = .waiting w k ∧ pc' = .waiting w' k ∧ w'.timeout = w.timeout ∧
    (w'.pc.beforeBlocking = true → w.pc.beforeBlocking = true)

theorem Pc.Timed.same {wait all : Meter} {pc pc' : Pc Server Parts} (h : pc.Timed wait all) (hpc : SamePc pc pc') :
    pc'.Timed wait all := by
  rcases hpc with rfl | rfl | ⟨w, w', k, rfl, rfl, htime, hbefore⟩
  · exact h
  · trivial
  · obtain ⟨ht, hw, hk⟩ := h
    refine ⟨htime.trans ht, fun hb => ?_, ?_⟩
    · rw [htime]
      exact hw (hbefore hb)
    · cases k with
      | allWrites a g =>
        obtain ⟨ha, hbudget, hentry, hwa⟩ := hk
        refine ⟨ha, hbudget, hentry, fun hb => ?_⟩
        rw [htime]
        exact hwa (hbefore hb)
      | _ => trivial

def Begins (pc pc' : Pc Server Parts) : Prop :=
  pc' = .idle ∨ (∃ a g, pc = .segment a g ∧ pc' = .allWrites { a with done := a.done ++ [g] }) ∨
    ∃ w k, pc' = .waiting w k ∧ w.pc.beforeBlocking = false ∧
      ∀ a g, k = .allWrites a g → pc = .segment a g ∧ w.timeout = a.timeout

section
variable {t : Timed Server Parts} {c : State Server Parts}

theorem inv_same (hI : t.Inv) (hpc : SamePc t.client.pc c.pc) : ({ t with client := c } : Timed Server Parts).Inv :=
  ⟨hI.wait, hI.all, hI.pc.same hpc⟩

theorem inv_begins (hI : t.Inv) (hb : Begins t.client.pc c.pc) : (t.begins c).Inv := by
  have hpc := hI.pc
  unfold Timed.begins
  rcases hb with hidle | ⟨a, g, hsegment, hall⟩ | ⟨w, k, hwaiting, hbefore, hk⟩
  · rw [hidle]
    refine ⟨hI.wait, hI.all, ?_⟩
    show c.pc.Timed _ _
    rw [hidle]
    trivial
  · rw [hall]
    refine ⟨hI.wait, hI.all, ?_⟩
    show c.pc.Timed _ _
    rw [hsegment] at hpc
    rw [hall]
    exact hpc
  · rw [hwaiting]
    refine ⟨Meter.ok_start w.timeout t.now, hI.all, ?_⟩
    show c.pc.Timed _ _
    rw [hwaiting]
    refine ⟨(Meter.left_start w.timeout t.now).symm, fun hb => ?_, ?_⟩
    · rw [hbefore] at hb
      cases hb
    · cases k with
      | allWrites a g =>
        obtain ⟨hsegment, htime⟩ := hk a g rfl
        rw [hsegment] at hpc
        refine ⟨hpc, htime, hI.all.t0, fun hb => ?_⟩
        rw [hbefore] at hb
        cases hb
      | _ => trivial

theorem inv_block (hI : t.Inv) {tokens : List Int} {timeout : ℚ} {results : Int → Option (Server × Parts)}
    {todo : List Int} {k : Caller Server Parts} {d : ℚ}
    (hpc : t.client.pc = .waiting ⟨tokens, timeout, results, todo, .blocking⟩ k) (h0 : 0 ≤ d)
    (hd : 0 ≤ timeout → t.wait.blocked + d ≤ timeout) :
    ({ t with
        now  := t.now + d
        wait := t.wait.block d
        all  := if k.inAllWrites then t.all.block d else t.all } : Timed Server Parts).Inv := by
  have hI' := hI.pc
  rw [hpc] at hI'
  obtain ⟨ht, hwaits, hk⟩ := hI'
  have hw := hwaits rfl
  have hwait : (t.wait.block d).Ok (t.now + d) := hI.wait.block hw h0 hd
  have hblocked : (t.wait.block d).blocked = t.wait.blocked + d := (hw.block d).blocked_eq
  have hw' : (t.wait.block d).Waits timeout (t.wait.block d).blocked := by
    rw [hblocked]
    exact hw.block d
  have hleft : timeout = (t.wait.block d).left := by
    rw [Meter.left_block]
    exact ht
  cases k with
  | allWrites a g =>
    obtain ⟨ha, hbudget, hentry, hwaits'⟩ := hk
    refine ⟨hwait, hI.all.block (hwaits' rfl) h0 hd, ?_⟩
    show t.client.pc.Timed (t.wait.block d) (t.all.block d)
    rw [hpc]
    refine ⟨hleft, fun _ => hw', ?_, ?_, ?_, fun _ => ?_⟩
    · rw [Meter.left_block]
      exact ha
    · rw [Meter.budget_block]
      exact hbudget
    · rw [Meter.t0_block, Meter.entry_block]
      exact hentry
    · rw [hblocked]
      exact (hwaits' rfl).block d
  | user | request servers | writeChunks servers waitAll timeout' =>
    refine ⟨hwait, hI.all.later (le_add_of_nonneg_right h0), ?_⟩
    show t.client.pc.Timed (t.wait.block d) t.all
    rw [hpc]
    exact ⟨hleft, fun _ => hw', trivial⟩

end

section
variable [DecidableEq Server] {chunkListLen : Parts → Option Nat} {unpacksReply : Parts → Bool}
variable {s s' : State Server Parts}

theorem samePc_arrive {k : Server} {m : Message Parts}
    (h : step chunkListLen unpacksReply s (.arrive k m) = some s') : SamePc s.pc s'.pc := by
  obtain rfl := Option.some.inj h
  exact .inl rfl

theorem samePc_popToken (h : step chunkListLen unpacksReply s .popToken = some s') : SamePc s.pc s'.pc := by
  simp only [step] at h
  split at h
  · rename_i hpc
    split at h <;> cases h
    · exact .inr (.inr ⟨_, _, _, hpc, rfl, rfl, id⟩)
    · exact .inr (.inl rfl)
    · exact .inr (.inr ⟨_, _, _, hpc, rfl, rfl, id⟩)
  · cases h

theorem samePc_recvMultipart (h : step chunkListLen unpacksReply s .recvMultipart = some s') :
    SamePc s.pc s'.pc := by
  simp only [step] at h
  split at h
  · rename_i hpc
    split at h <;> cases h
    refine .inr (.inr ⟨_, _, _, hpc, rfl, rfl, fun hb => ?_⟩)
    rw [beforeBlocking_reading] at hb ⊢
    exact hb
  · cases h

theorem samePc_eventsDone (h : step chunkListLen unpacksReply s .eventsDone = some s') : SamePc s.pc s'.pc := by
  simp only [step] at h
  split at h <;> cases h
  rename_i nonblocking _ hpc
  refine .inr (.inr ⟨_, _, _, hpc, rfl, rfl, ?_⟩)
  cases nonblocking with
  | true => exact fun _ => rfl
  | false =>
    intro hb
    cases hb

theorem samePc_poll {events : List Server} (h : step chunkListLen unpacksReply s (.poll events) = some s') :
    SamePc s.pc s'.pc := by
  simp only [step] at h
  split at h
  · split at h
    · rename_i hpc
      cases h
      exact .inr (.inr ⟨_, _, _, hpc, rfl, rfl, fun _ => rfl⟩)
    · rename_i hpc
      split at h
      · cases h
        exact .inr (.inr ⟨_, _, _, hpc, rfl, rfl, fun _ => rfl⟩)
      · split at h <;> cases h
        exact .inr (.inr ⟨_, _, _, hpc, rfl, rfl, fun _ => rfl⟩)
    · cases h
  · cases h

theorem step_popped (h : step chunkListLen unpacksReply s .popped = some s') :
    ∃ w w' k, s.pc = .waiting w k ∧ s'.pc = .waiting w' k ∧ w'.timeout = w.timeout ∧
      (w'.pc = .returning ∨ w'.pc = .polling false) := by
  simp only [step] at h
  split at h <;> cases h
  rename_i tokens timeout results todo done k hpc
  refine ⟨_, _, k, hpc, rfl, rfl, ?_⟩
  by_cases htodo : todo.diff done = []
  · exact .inl (if_pos htodo)
  · exact .inr (if_neg htodo)

theorem step_adjustTimeout {dt : ℚ} (h : step chunkListLen unpacksReply s (.adjustTimeout dt) = some s') :
    ∃ w w' k, s.pc = .waiting w k ∧ s'.pc = .waiting w' k ∧ w'.timeout = adjust w.timeout dt ∧
      w'.pc.beforeBlocking = false := by
  simp only [step] at h
  split at h <;> cases h
  rename_i hpc
  exact ⟨_, _, _, hpc, rfl, rfl, rfl⟩

theorem step_request {kind : Kind} {servers : List Server} {wait : Bool} {timeout : ℚ}
    (h : step chunkListLen unpacksReply s (.request kind servers wait timeout) = some s') : Begins s.pc s'.pc := by
  simp only [step] at h
  split at h
  · rename_i hpc
    cases wait with
    | true =>
      cases kind with
      | simple =>
        cases h
        refine .inr (.inr ⟨_, _, rfl, rfl, fun _ _ hk => ?_⟩)
        cases hk
      | writeChunks waitAll =>
        cases h
        refine .inr (.inr ⟨_, _, rfl, rfl, fun _ _ hk => ?_⟩)
        cases hk
    | false =>
      cases h
      exact .inl hpc
  · cases h

theorem step_waitForTokens {tokens : List Int} {timeout : ℚ}
    (h : step chunkListLen unpacksReply s (.waitForTokens tokens timeout) = some s') : Begins s.pc s'.pc := by
  simp only [step] at h
  split at h <;> cases h
  refine .inr (.inr ⟨_, _, rfl, rfl, fun _ _ hk => ?_⟩)
  cases hk

theorem step_nextReply (h : step chunkListLen unpacksReply s .nextReply = some s') : Begins s.pc s'.pc := by
  simp only [step] at h
  split at h
  · rename_i a g hpc
    split at h <;> cases h
    · refine .inr (.inr ⟨_, _, rfl, rfl, fun a' g' hk => ?_⟩)
      cases hk
      exact ⟨hpc, rfl⟩
    · exact .inr (.inl ⟨a, g, hpc, rfl⟩)
  · cases h

theorem step_waitForAllWrites {chunklists : List (Option Nat)} {tokens : List Int} {timeout : ℚ}
    (h : step chunkListLen unpacksReply s (.waitForAllWrites chunklists tokens timeout) = some s') :
    ∃ a, s'.pc = .allWrites a ∧ a.timeout = timeout := by
  simp only [step] at h
  split at h <;> cases h
  exact ⟨_, rfl, rfl⟩

theorem step_nextToken (h : step chunkListLen unpacksReply s .nextToken = some s') :
    ∃ a, s.pc = .allWrites a ∧ (s'.pc = .idle ∨ (∃ a', s'.pc = .allWrites a' ∧ a'.timeout = a.timeout) ∨
      ∃ a' g, s'.pc = .segment a' g ∧ a'.timeout = a.timeout) := by
  simp only [step] at h
  split at h
  · rename_i a hpc
    refine ⟨a, hpc, ?_⟩
    split at h <;> cases h
    · exact .inl rfl
    · exact .inr (.inl ⟨_, rfl, rfl⟩)
    · exact .inr (.inr ⟨_, _, rfl, rfl⟩)
  · cases h

theorem step_waitReturns {dt : ℚ} (h : step chunkListLen unpacksReply s (.waitReturns dt) = some s') :
    ∃ w k, s.pc = .waiting w k ∧ (s'.pc = .idle ∨
      (k.inAllWrites = false ∧ ∃ a, s'.pc = .allWrites a) ∨
      ∃ a g, k = .allWrites a g ∧ ∃ a', a'.timeout = adjust a.timeout dt ∧
        (s'.pc = .allWrites a' ∨ ∃ g', s'.pc = .segment a' g')) := by
  simp only [step] at h
  split at h <;> cases h
  rename_i tokens timeout results todo k hpc
  refine ⟨_, k, hpc, ?_⟩
  cases k with
  | user => exact .inl rfl
  | request servers => exact .inl rfl
  | writeChunks servers waitAll timeout =>
    simp only [State.afterWait]
    split
    · exact .inl rfl
    · split
      · exact .inr (.inl ⟨rfl, _, rfl⟩)
      · exact .inl rfl
  | allWrites a g =>
    simp only [State.afterWait]
    split
    · exact .inr (.inr ⟨a, g, rfl, _, rfl, .inl rfl⟩)
    · split
      · exact .inr (.inr ⟨a, g, rfl, _, rfl, .inr ⟨_, rfl⟩⟩)
      · exact .inl rfl

/-! ## The steps keep the invariant -/

variable {t : Timed Server Parts} {c : State Server Parts}

theorem inv_popped (hI : t.Inv) (h : step chunkListLen unpacksReply t.client .popped = some c) : (t.popped c).Inv := by
  obtain ⟨w, ⟨tokens, timeout, results, todo, pc'⟩, k, hpc, hpc', htime, hret⟩ := step_popped h
  have hI' := hI.pc
  rw [hpc] at hI'
  obtain ⟨ht, -, hk⟩ := hI'
  have hleft : timeout = t.wait.left := Eq.trans htime ht
  unfold Timed.popped
  rcases hret with hret | hret
  · obtain rfl : pc' = .returning := hret
    rw [hpc']
    refine ⟨hI.wait, hI.all, ?_⟩
    show c.pc.Timed _ _
    rw [hpc']
    refine ⟨hleft, fun hb => (nomatch hb), ?_⟩
    cases k with
    | allWrites a g => exact ⟨hk.1, hk.2.1, hk.2.2.1, fun hb => nomatch hb⟩
    | _ => trivial
  · obtain rfl : pc' = .polling false := hret
    rw [hpc']
    have hwait : (t.wait.receive timeout t.wait.measured t.now).Ok t.now :=
      hI.wait.receive hleft hI.wait.measured_nonneg (sub_le_sub_right hI.wait.t0 t.wait.entry)
    cases k with
    | allWrites a g =>
      obtain ⟨ha, hbudget, hentry, -⟩ := hk
      have hall : timeout = adjust t.all.budget (seconds (t.all.measured + t.wait.measured)) := by
        rw [hleft, Meter.left, hbudget, ha, Meter.left, adjust_adjust _ _ (seconds_nonneg hI.wait.measured_nonneg),
          seconds_add]
      have hle : t.all.measured + t.wait.measured ≤ t.now - t.all.entry := by
        have ht0 := hI.wait.t0
        unfold Meter.measured
        linarith
      refine ⟨hwait, hI.all.receive hall (add_nonneg hI.all.measured_nonneg hI.wait.measured_nonneg) hle, ?_⟩
      show c.pc.Timed _ _
      rw [hpc']
      exact ⟨hleft, fun _ => ⟨_, _, rfl, rfl, rfl⟩, ha, hbudget, hentry, fun _ => ⟨_, _, rfl, rfl, rfl⟩⟩
    | user | request servers | writeChunks servers waitAll timeout' =>
      refine ⟨hwait, hI.all, ?_⟩
      show c.pc.Timed _ _
      rw [hpc']
      exact ⟨hleft, fun _ => ⟨_, _, rfl, rfl, rfl⟩, trivial⟩

theorem inv_adjustTimeout (hI : t.Inv) {dt : ℚ} (hdt : dt = seconds t.now - seconds t.wait.t0)
    (h : step chunkListLen unpacksReply t.client (.adjustTimeout dt) = some c) : (t.after c (.adjustTimeout dt)).Inv := by
  obtain ⟨w, w', k, hpc, hpc', htime, hbefore⟩ := step_adjustTimeout h
  have hI' := hI.pc
  rw [hpc] at hI'
  obtain ⟨ht, -, hk⟩ := hI'
  refine ⟨hI.wait.read, hI.all, ?_⟩
  show c.pc.Timed _ _
  rw [hpc']
  refine ⟨?_, fun hb => ?_, ?_⟩
  · rw [htime, ht, hdt]
    exact Meter.left_read hI.wait
  · rw [hbefore] at hb
    cases hb
  · cases k with
    | allWrites a g =>
      refine ⟨hk.1, hk.2.1, hk.2.2.1, fun hb => ?_⟩
      rw [hbefore] at hb
      cases hb
    | _ => trivial

theorem inv_waitForAllWrites (hI : t.Inv) {chunklists : List (Option Nat)} {tokens : List Int} {timeout : ℚ}
    (h : step chunkListLen unpacksReply t.client (.waitForAllWrites chunklists tokens timeout) = some c) :
    (t.after c (.waitForAllWrites chunklists tokens timeout)).Inv := by
  obtain ⟨a, hpc, rfl⟩ := step_waitForAllWrites h
  refine ⟨hI.wait, Meter.ok_start a.timeout t.now, ?_⟩
  show c.pc.Timed _ _
  rw [hpc]
  exact (Meter.left_start a.timeout t.now).symm

theorem inv_nextToken (hI : t.Inv) (h : step chunkListLen unpacksReply t.client .nextToken = some c) :
    (t.after c .nextToken).Inv := by
  obtain ⟨a, hpc, hc⟩ := step_nextToken h
  have hI' := hI.pc
  rw [hpc] at hI'
  refine ⟨hI.wait, hI.all, ?_⟩
  show c.pc.Timed _ _
  rcases hc with hc | ⟨a', hc, htime⟩ | ⟨a', g, hc, htime⟩
  · rw [hc]
    trivial
  · rw [hc]
    exact Eq.trans htime hI'
  · rw [hc]
    exact Eq.trans htime hI'

theorem inv_returns (hI : t.Inv) {dt : ℚ} (hdt : dt = seconds t.now - seconds t.all.t0)
    (h : step chunkListLen unpacksReply t.client (.waitReturns dt) = some c) : (t.returns c).Inv := by
  obtain ⟨w, k, hpc, hc⟩ := step_waitReturns h
  have hI' := hI.pc
  rw [hpc] at hI'
  unfold Timed.returns
  rw [hpc]
  cases k with
  | allWrites a g =>
    obtain ⟨-, -, ha, -⟩ := hI'
    refine ⟨hI.wait, hI.all.read, ?_⟩
    show c.pc.Timed _ _
    rcases hc with hc | ⟨hk, -⟩ | ⟨a₀, g₀, hk, a', htime, hc⟩
    · rw [hc]
      trivial
    · cases hk
    · cases hk
      have hleft : a'.timeout = ({ t.all with t0 := t.now } : Meter).left := by
        rw [htime, ha, hdt]
        exact Meter.left_read hI.all
      rcases hc with hc | ⟨g', hc⟩
      · rw [hc]
        exact hleft
      · rw [hc]
        exact hleft
  | user | request servers | writeChunks servers waitAll timeout =>
    rcases hc with hc | ⟨-, a, hc⟩ | ⟨a, g, hk, -⟩
    · rw [hc]
      refine ⟨hI.wait, hI.all, ?_⟩
      show c.pc.Timed _ _
      rw [hc]
      trivial
    · rw [hc]
      refine ⟨hI.wait, Meter.ok_start a.timeout t.now, ?_⟩
      show c.pc.Timed _ _
      rw [hc]
      exact (Meter.left_start a.timeout t.now).symm
    · cases hk

theorem inv_act {a : Action Server Parts} (hI : t.Inv) (hr : t.reads a = true)
    (h : step chunkListLen unpacksReply t.client a = some c) : (t.after c a).Inv := by
  cases a with
  | arrive k m => exact inv_same hI (samePc_arrive h)
  | request kind servers wait timeout => exact inv_begins hI (step_request h)
  | waitForTokens tokens timeout => exact inv_begins hI (step_waitForTokens h)
  | waitForAllWrites chunklists tokens timeout => exact inv_waitForAllWrites hI h
  | popToken => exact inv_same hI (samePc_popToken h)
  | popped => exact inv_popped hI h
  | poll events => exact inv_same hI (samePc_poll h)
  | recvMultipart => exact inv_same hI (samePc_recvMultipart h)
  | eventsDone => exact inv_same hI (samePc_eventsDone h)
  | adjustTimeout dt => exact inv_adjustTimeout hI (of_decide_eq_true hr) h
  | waitReturns dt => exact inv_returns hI (of_decide_eq_true hr) h
  | nextToken => exact inv_nextToken hI h
  | nextReply => exact inv_begins hI (step_nextReply h)

theorem inv_timedStep (t : Timed Server Parts) (a : TimedAction Server Parts) (t' : Timed Server Parts) (hI : t.Inv)
    (h : timedStep chunkListLen unpacksReply t a = some t') : t'.Inv := by
  cases a with
  | elapse dt =>
    simp only [timedStep] at h
    split at h <;> cases h
    rename_i h0
    have hle : t.now ≤ t.now + dt := le_add_of_nonneg_right h0
    exact ⟨hI.wait.later hle, hI.all.later hle, hI.pc⟩
  | act a =>
    simp only [timedStep] at h
    split at h
    · rename_i hr
      obtain ⟨c, hc, rfl⟩ := Option.map_eq_some_iff.1 h
      exact inv_act hI hr hc
    · cases h
  | block d =>
    simp only [timedStep] at h
    split at h
    · rename_i tokens timeout results todo k hpc
      split at h <;> cases h
      rename_i hd
      exact inv_block hI hpc hd.1 hd.2
    · cases h

end

/-! ## What `_receive` is given -/

namespace Receive

variable {budget elapsed : ℚ} {r : Receive}

/-- **The timeout of `_receive`** is within what is left only if nothing is gone, or if the seconds are as many as the
milliseconds that there were. -/
theorem Ok.within_iff (h : r.Ok budget) (hpos : 0 < budget) (hle : r.measured ≤ elapsed) :
    (0 ≤ r.timeout ∧ r.timeout ≤ max 0 (budget - elapsed)) ↔ elapsed = 0 ∨ budget ≤ seconds r.measured := by
  have htime : r.timeout = max 0 (budget - seconds r.measured) := by
    rw [h.timeout, adjust_of_pos hpos]
  have h0 : 0 ≤ r.measured := h.measured.1
  rw [htime]
  constructor
  · rintro ⟨-, hmax⟩
    by_contra hno
    obtain ⟨hne, hlt⟩ := not_or.1 hno
    have hleft : 0 < budget - seconds r.measured := sub_pos.2 (not_le.1 hlt)
    have hlate : budget - seconds r.measured ≤ budget - elapsed := by
      rcases le_max_iff.1 ((le_max_right _ _).trans hmax) with hzero | hrest
      · exact absurd hleft (not_lt.2 hzero)
      · exact hrest
    have hthousand : elapsed ≤ seconds elapsed := by
      unfold seconds at hlate ⊢
      linarith
    have hzero : elapsed = 0 := by
      unfold seconds at hthousand
      linarith
    exact hne hzero
  · intro hcase
    refine ⟨le_max_left _ _, max_le (le_max_left _ _) ?_⟩
    rcases hcase with hzero | hlate
    · have hnone : r.measured = 0 := le_antisymm (hle.trans_eq hzero) h0
      rw [hzero, hnone, seconds, zero_div]
      exact le_max_right _ _
    · exact (sub_nonpos.2 hlate).trans (le_max_left _ _)

end Receive

namespace Meter

variable {m : Meter} {now : ℚ}

theorem Ok.within_iff (h : m.Ok now) (hpos : 0 < m.budget) {elapsed : Receive → ℚ}
    (hle : ∀ r ∈ m.receives, r.measured ≤ elapsed r) : m.Within elapsed ↔ m.InTime elapsed := by
  constructor
  · intro hw r hr
    exact ((h.receives r hr).within_iff hpos (hle r hr)).1 (hw r hr)
  · intro hin r hr
    exact ((h.receives r hr).within_iff hpos (hle r hr)).2 (hin r hr)

theorem pollTime_le {budget : ℚ} (hpos : 0 ≤ budget) : ∀ {rs : List Receive}, (∀ r ∈ rs, r.Ok budget) → Paced rs →
    (∀ r ∈ rs, 0 ≤ r.timeout ∧ r.timeout ≤ max 0 (budget - r.elapsed)) → pollTime rs ≤ budget
  | [],      _,  _,          _ => hpos
  | r :: rs, hr, ⟨hp, hps⟩, hw => by
    obtain ⟨hok, hoks⟩ := List.forall_mem_cons.1 hr
    obtain ⟨⟨h0, hmax⟩, hws⟩ := List.forall_mem_cons.1 hw
    have hbefore : pollTime rs ≤ budget := pollTime_le hpos hoks hps hws
    have hpolled : r.polled ≤ max 0 (budget - r.elapsed) := (hok.polled h0).trans hmax
    show r.polled + pollTime rs ≤ budget
    rcases le_max_iff.1 hpolled with hzero | hrest
    · linarith
    · linarith

theorem Ok.kept_iff (h : m.Ok now) (hpos : 0 < m.budget) : m.Kept ↔ m.InTime (·.elapsed) := by
  have hle : ∀ r ∈ m.receives, r.measured ≤ r.elapsed := fun r hr => (h.receives r hr).measured.2
  rw [← h.within_iff hpos hle]
  exact ⟨Kept.within, fun hw => ⟨hw, pollTime_le hpos.le h.receives h.paced hw⟩⟩

end Meter

section
variable [DecidableEq Server] (chunkListLen : Parts → Option Nat) (unpacksReply : Parts → Bool)

theorem inv_of_reachable {chunkListLen : Parts → Option Nat} {unpacksReply : Parts → Bool} {now : ℚ}
    {t : Timed Server Parts} (h : Reachable (timedStep chunkListLen unpacksReply) (Timed.init now) t) : t.Inv :=
  h.invariant Timed.Inv (inv_timedInit now) (fun t a t' hI hs => inv_timedStep t a t' hI hs)

/-- The same with the time of the last reading of the clock, not of the call: what the client does between the two is
not what makes a timeout too long. -/
theorem withinMeasured_iff (now : ℚ) (t : Timed Server Parts)
    (h : Reachable (timedStep chunkListLen unpacksReply) (Timed.init now) t) :
    (0 < t.wait.budget → (t.wait.Within (·.measured) ↔ t.wait.InTime (·.measured))) ∧
      (0 < t.all.budget → (t.all.Within (·.measured) ↔ t.all.InTime (·.measured))) := by
  have hI := inv_of_reachable h
  constructor
  · intro hpos
    exact hI.wait.within_iff hpos (fun _ _ => le_rfl)
  · intro hpos
    exact hI.all.within_iff hpos (fun _ _ => le_rfl)

/-- **At any time in any run**, the last call of `wait_for_tokens` and the last call of `wait_for_all_writes` have kept
their budgets if and only if each `_receive` was called when no time had passed yet, or when the seconds that had been
measured were as many as the milliseconds of the budget. -/
theorem budgets_kept_iff (now : ℚ) (t : Timed Server Parts)
    (h : Reachable (timedStep chunkListLen unpacksReply) (Timed.init now) t) :
    (0 < t.wait.budget → (t.wait.Kept ↔ t.wait.InTime (·.elapsed))) ∧
      (0 < t.all.budget → (t.all.Kept ↔ t.all.InTime (·.elapsed))) :=
  ⟨(inv_of_reachable h).wait.kept_iff, (inv_of_reachable h).all.kept_iff⟩

end

/-- A reply to another request arrives after half a second. -/
def unrelatedReply : List (TimedAction Unit Unit) :=
  [.act (.waitForTokens [1] 1000), .act .popToken, .act .popped, .act (.poll []), .block 500, .act (.arrive () ⟨2, ()⟩),
    .act (.poll [()]), .act .recvMultipart, .act .eventsDone, .act (.adjustTimeout (1 / 2)), .act .popToken,
    .act .popped]

abbrev unrelatedStep : Timed Unit Unit → TimedAction Unit Unit → Option (Timed Unit Unit) :=
  timedStep (fun _ => none) (fun _ => false)

theorem run_unrelatedReply : ∃ t, Reachable unrelatedStep (Timed.init 0) t ∧
    t.wait = ⟨1000, 0, 500, [⟨1999 / 2, 500, 500, 0⟩, ⟨1000, 0, 0, 500⟩]⟩ := by
  have hrun : (run unrelatedStep (Timed.init 0) unrelatedReply).map (·.wait) =
      some ⟨1000, 0, 500, [⟨1999 / 2, 500, 500, 0⟩, ⟨1000, 0, 0, 500⟩]⟩ := by decide +kernel
  obtain ⟨t, ht, hwait⟩ := Option.map_eq_some_iff.1 hrun
  exact ⟨t, ⟨unrelatedReply, ht⟩, hwait⟩

theorem not_kept_unrelatedReply :
    ¬ ∀ t, Reachable unrelatedStep (Timed.init 0) t → 0 < t.wait.budget → t.wait.Kept := by
  intro h
  obtain ⟨t, ht, hwait⟩ := run_unrelatedReply
  have hkept := h t ht (by rw [hwait]; norm_num)
  have hlate := (hkept.within ⟨1999 / 2, 500, 500, 0⟩ (by rw [hwait]; exact .head _)).2
  rw [hwait] at hlate
  norm_num at hlate

theorem kept_iff_unrelatedReply : ∃ t, Reachable unrelatedStep (Timed.init 0) t ∧ t.wait.budget = 1000 ∧
    ¬ t.wait.InTime (·.elapsed) ∧ ¬ t.wait.Kept := by
  obtain ⟨t, ht, hwait⟩ := run_unrelatedReply
  have hpos : 0 < t.wait.budget := by
    rw [hwait]
    norm_num
  have hlate : ¬ t.wait.InTime (·.elapsed) := by
    intro h
    have hfirst := h ⟨1999 / 2, 500, 500, 0⟩ (by rw [hwait]; exact .head _)
    rw [hwait] at hfirst
    norm_num [seconds] at hfirst
  exact ⟨t, ht, by rw [hwait], hlate,
    fun h => hlate (((budgets_kept_iff (fun _ => none) (fun _ => false) 0 t ht).1 hpos).1 h)⟩

end Client
end FrbL1
